import Mathlib.Data.List.Basic
import Mathlib.Algebra.Order.Ring.Nat
import Mathlib.Tactic.Ring
import Mathlib.Tactic.Linarith

/-!
# Files seen as sequences of fixed-size pages

A file is a list of cells.  `setLen` and `writeAt` are the two positional
operations of an operating system file; `pageAt` reads a 1-based page.  Every
law below is stated through `pageAt`, and `ext_pageAt` turns agreement on all
pages back into equality of files.
-/

namespace PagedFile

variable {β : Type*} [Zero β]

/-- Truncate or zero-extend a file to exactly `size` cells. -/
def setLen (size : Nat) (file : List β) : List β :=
  file.take size ++ List.replicate (size - file.length) 0

/-- Positional write; writing past the end first zero-fills the gap. -/
def writeAt (offset : Nat) (data file : List β) : List β :=
  let grown := setLen (max file.length (offset + data.length)) file
  grown.take offset ++ (data ++ grown.drop (offset + data.length))

omit [Zero β] in
/-- The cells of the 1-based page `pgno`. -/
def pageAt (pageSize pgno : Nat) (file : List β) : List β :=
  (file.drop ((pgno - 1) * pageSize)).take pageSize

/-- A page of zeros. -/
def zeroPage (pageSize : Nat) : List β := List.replicate pageSize 0

@[simp] theorem length_zeroPage (pageSize : Nat) :
    (zeroPage pageSize : List β).length = pageSize := by
  simp [zeroPage]

@[simp] theorem length_setLen (size : Nat) (file : List β) :
    (setLen size file).length = size := by
  simp only [setLen, List.length_append, List.length_take, List.length_replicate]
  omega

@[simp] theorem length_writeAt (offset : Nat) (data file : List β) :
    (writeAt offset data file).length =
      max file.length (offset + data.length) := by
  simp only [writeAt, List.length_append, List.length_take, List.length_drop,
    length_setLen]
  omega

theorem getElem?_setLen (size : Nat) (file : List β) (index : Nat) :
    (setLen size file)[index]? =
      if index < size then some (file[index]?.getD 0) else none := by
  unfold setLen
  by_cases inside : index < size
  · by_cases old : index < file.length
    · rw [List.getElem?_append_left (by simp; omega)]
      simp [inside, old]
    · rw [List.getElem?_append_right (by simp; omega)]
      simp only [List.length_take]
      rw [List.getElem?_replicate_of_lt (by omega)]
      simp [inside, List.getElem?_eq_none (Nat.le_of_not_lt old)]
  · rw [if_neg inside]
    apply List.getElem?_eq_none
    simp
    omega

/-- A write that starts inside the file ends right behind its data. -/
theorem take_writeAt {offset : Nat} {data file : List β}
    (inside : offset ≤ file.length) :
    (writeAt offset data file).take (offset + data.length) =
      file.take offset ++ data := by
  have kept :
      (setLen (max file.length (offset + data.length)) file).take offset =
        file.take offset := by
    rw [setLen, List.take_append_of_le_length, List.take_take,
      Nat.min_eq_left (by omega)]
    rw [List.length_take]
    omega
  have size : (file.take offset).length = offset :=
    List.length_take_of_le inside
  simp only [writeAt]
  rw [kept, ← List.append_assoc, List.take_left']
  rw [List.length_append, size]

theorem getElem?_writeAt_of_lt {offset index : Nat} {data file : List β}
    (before : index < offset) (inside : index < file.length) :
    (writeAt offset data file)[index]? = file[index]? := by
  have grownLength := length_setLen (max file.length (offset + data.length)) file
  unfold writeAt
  rw [List.getElem?_append_left (by simp; omega), List.getElem?_take,
    if_pos before, getElem?_setLen, if_pos (by omega)]
  simp [inside]

theorem getElem?_writeAt_of_ge {offset index : Nat} {data file : List β}
    (after : offset + data.length ≤ index) (inside : index < file.length) :
    (writeAt offset data file)[index]? = file[index]? := by
  have grownLength := length_setLen (max file.length (offset + data.length)) file
  unfold writeAt
  rw [List.getElem?_append_right (by simp; omega),
    List.getElem?_append_right (by simp; omega), List.getElem?_drop]
  have position : offset + data.length + (index - (List.take offset
      (setLen (max file.length (offset + data.length)) file)).length -
        data.length) = index := by
    simp
    omega
  rw [position, getElem?_setLen, if_pos (by omega)]
  simp [inside]

theorem getElem?_writeAt_inside {offset index : Nat} {data file : List β}
    (after : offset ≤ index) (inside : index < offset + data.length) :
    (writeAt offset data file)[index]? = data[index - offset]? := by
  have prefixLength : (List.take offset
      (setLen (max file.length (offset + data.length)) file)).length = offset := by
    simp
  unfold writeAt
  rw [List.getElem?_append_right (by omega), prefixLength,
    List.getElem?_append_left (by omega)]

omit [Zero β] in
theorem getElem?_pageAt (pageSize pgno : Nat) (file : List β) (index : Nat) :
    (pageAt pageSize pgno file)[index]? =
      if index < pageSize then file[(pgno - 1) * pageSize + index]? else none := by
  simp [pageAt, List.getElem?_take, List.getElem?_drop]

omit [Zero β] in
theorem length_pageAt {pageSize pgno : Nat} {file : List β}
    (positive : 1 ≤ pgno) (inside : pgno * pageSize ≤ file.length) :
    (pageAt pageSize pgno file).length = pageSize := by
  have split : pgno * pageSize = (pgno - 1) * pageSize + pageSize := by
    rw [← Nat.succ_mul]
    congr 1
    omega
  simp only [pageAt, List.length_take, List.length_drop]
  omega

private theorem page_start_add (pageSize : Nat) {pgno : Nat}
    (positive : 1 ≤ pgno) :
    (pgno - 1) * pageSize + pageSize = pgno * pageSize := by
  rw [← Nat.succ_mul]
  congr 1
  omega

/-- Resizing keeps every page that stays inside the file. -/
theorem pageAt_setLen_of_le {pageSize pgno size : Nat} {file : List β}
    (positive : 1 ≤ pgno) (inside : pgno * pageSize ≤ size)
    (old : pgno * pageSize ≤ file.length) :
    pageAt pageSize pgno (setLen size file) = pageAt pageSize pgno file := by
  have start := page_start_add pageSize positive
  apply List.ext_getElem?
  intro index
  rw [getElem?_pageAt, getElem?_pageAt]
  by_cases below : index < pageSize
  · rw [if_pos below, if_pos below, getElem?_setLen, if_pos (by omega)]
    rw [List.getElem?_eq_getElem (by omega)]
    simp
  · simp [below]

/-- Pages that a resize adds read as zeros. -/
theorem pageAt_setLen_of_gt {pageSize pgno count size : Nat} {file : List β}
    (inside : pgno * pageSize ≤ size) (beyond : count < pgno)
    (old : file.length = count * pageSize) :
    pageAt pageSize pgno (setLen size file) = zeroPage pageSize := by
  have positive : 1 ≤ pgno := by omega
  have start := page_start_add pageSize positive
  have passed : count * pageSize ≤ (pgno - 1) * pageSize :=
    Nat.mul_le_mul_right _ (by omega)
  apply List.ext_getElem?
  intro index
  rw [getElem?_pageAt]
  by_cases below : index < pageSize
  · rw [if_pos below, getElem?_setLen, if_pos (by omega)]
    rw [List.getElem?_eq_none (by omega)]
    simp [zeroPage, below]
  · simp [zeroPage, below]

theorem pageAt_writeAt_same {pageSize pgno : Nat} {data file : List β}
    (whole : data.length = pageSize) :
    pageAt pageSize pgno (writeAt ((pgno - 1) * pageSize) data file) = data := by
  apply List.ext_getElem?
  intro index
  rw [getElem?_pageAt]
  by_cases below : index < pageSize
  · rw [if_pos below, getElem?_writeAt_inside (by omega) (by omega)]
    simp
  · rw [if_neg below, List.getElem?_eq_none (by omega)]

theorem pageAt_writeAt_other {pageSize pgno other : Nat} {data file : List β}
    (positive : 1 ≤ pgno) (otherPositive : 1 ≤ other)
    (whole : data.length = pageSize) (different : other ≠ pgno)
    (inside : other * pageSize ≤ file.length) :
    pageAt pageSize other (writeAt ((pgno - 1) * pageSize) data file) =
      pageAt pageSize other file := by
  have start := page_start_add pageSize positive
  have otherStart := page_start_add pageSize otherPositive
  apply List.ext_getElem?
  intro index
  rw [getElem?_pageAt, getElem?_pageAt]
  by_cases below : index < pageSize
  · rw [if_pos below, if_pos below]
    rcases Nat.lt_or_gt_of_ne different with less | greater
    · have ordered : other * pageSize ≤ (pgno - 1) * pageSize :=
        Nat.mul_le_mul_right _ (by omega)
      exact getElem?_writeAt_of_lt (by omega) (by omega)
    · have ordered : pgno * pageSize ≤ (other - 1) * pageSize :=
        Nat.mul_le_mul_right _ (by omega)
      exact getElem?_writeAt_of_ge (by omega) (by omega)
  · simp [below]

omit [Zero β] in
/-- Two files of `count` pages with the same pages are the same file. -/
theorem ext_pageAt {pageSize count : Nat} {left right : List β}
    (leftLength : left.length = count * pageSize)
    (rightLength : right.length = count * pageSize)
    (agree : ∀ pgno, 1 ≤ pgno → pgno ≤ count →
      pageAt pageSize pgno left = pageAt pageSize pgno right) :
    left = right := by
  apply List.ext_getElem?
  intro index
  by_cases inside : index < count * pageSize
  · have pageSizePositive : 0 < pageSize := by
      rcases Nat.eq_zero_or_pos pageSize with zero | positive
      · simp [zero] at inside
      · exact positive
    have quotient : index / pageSize < count := by
      rw [Nat.div_lt_iff_lt_mul pageSizePositive]
      exact inside
    have samePage := agree (index / pageSize + 1) (Nat.le_add_left 1 _) quotient
    have sameCell := congrArg (fun page => page[index % pageSize]?) samePage
    have remainder := Nat.mod_lt index pageSizePositive
    have position : index / pageSize * pageSize + index % pageSize = index :=
      Nat.div_add_mod' index pageSize
    simpa [getElem?_pageAt, remainder, position] using sameCell
  · rw [List.getElem?_eq_none (by omega), List.getElem?_eq_none (by omega)]

omit [Zero β] in
/-- The file whose 1-based page `pgno` is `content pgno`. -/
def ofPages (count : Nat) (content : Nat → List β) : List β :=
  (List.range count).flatMap fun index => content (index + 1)

omit [Zero β] in
theorem ofPages_succ (count : Nat) (content : Nat → List β) :
    ofPages (count + 1) content = ofPages count content ++ content (count + 1) := by
  simp [ofPages, List.range_succ]

omit [Zero β] in
theorem length_ofPages {pageSize : Nat} (count : Nat) {content : Nat → List β}
    (whole : ∀ pgno, (content pgno).length = pageSize) :
    (ofPages count content).length = count * pageSize := by
  induction count with
  | zero => simp [ofPages]
  | succ count ih =>
      rw [ofPages_succ, List.length_append, ih, whole, Nat.succ_mul]

omit [Zero β] in
theorem pageAt_append_left {pageSize pgno : Nat} {left right : List β}
    (positive : 1 ≤ pgno) (inside : pgno * pageSize ≤ left.length) :
    pageAt pageSize pgno (left ++ right) = pageAt pageSize pgno left := by
  have start := page_start_add pageSize positive
  apply List.ext_getElem?
  intro index
  rw [getElem?_pageAt, getElem?_pageAt]
  by_cases below : index < pageSize
  · rw [if_pos below, if_pos below, List.getElem?_append_left (by omega)]
  · simp [below]

omit [Zero β] in
theorem pageAt_ofPages {pageSize count pgno : Nat} {content : Nat → List β}
    (whole : ∀ pgno, (content pgno).length = pageSize)
    (positive : 1 ≤ pgno) (inside : pgno ≤ count) :
    pageAt pageSize pgno (ofPages count content) = content pgno := by
  induction count with
  | zero => omega
  | succ count ih =>
      have length := length_ofPages count whole
      rw [ofPages_succ]
      rcases Nat.lt_or_ge count pgno with last | earlier
      · have same : pgno = count + 1 := by omega
        subst same
        simp [pageAt, ← length, whole, List.take_of_length_le]
      · have bound : pgno * pageSize ≤ count * pageSize :=
          Nat.mul_le_mul_right _ earlier
        rw [pageAt_append_left positive (by omega), ih earlier]

/-- Write numbered pages one after the other. -/
def writePages (pageSize : Nat) : List (Nat × List β) → List β → List β
  | [], file => file
  | (pgno, data) :: rest, file =>
      writePages pageSize rest (writeAt ((pgno - 1) * pageSize) data file)

/-- A whole page that lies inside the first `count` pages. -/
def Fits (pageSize count : Nat) (page : Nat × List β) : Prop :=
  1 ≤ page.1 ∧ page.1 ≤ count ∧ page.2.length = pageSize

theorem length_writeAt_page {pageSize count : Nat} {page : Nat × List β}
    {file : List β} (fits : Fits pageSize count page)
    (whole : file.length = count * pageSize) :
    (writeAt ((page.1 - 1) * pageSize) page.2 file).length =
      count * pageSize := by
  obtain ⟨positive, inside, length⟩ := fits
  have start := page_start_add pageSize positive
  have bound : page.1 * pageSize ≤ count * pageSize :=
    Nat.mul_le_mul_right _ inside
  rw [length_writeAt]
  omega

theorem length_writePages {pageSize count : Nat} {pages : List (Nat × List β)}
    {file : List β} (fit : ∀ page ∈ pages, Fits pageSize count page)
    (whole : file.length = count * pageSize) :
    (writePages pageSize pages file).length = count * pageSize := by
  induction pages generalizing file with
  | nil => exact whole
  | cons page rest ih =>
      apply ih
      · exact fun other member => fit other (by simp [member])
      · exact length_writeAt_page (fit page (by simp)) whole

/-- A page that is not written keeps its contents. -/
theorem pageAt_writePages_of_not_mem {pageSize count pgno : Nat}
    {pages : List (Nat × List β)} {file : List β}
    (fit : ∀ page ∈ pages, Fits pageSize count page)
    (whole : file.length = count * pageSize)
    (positive : 1 ≤ pgno) (inside : pgno ≤ count)
    (absent : ∀ page ∈ pages, page.1 ≠ pgno) :
    pageAt pageSize pgno (writePages pageSize pages file) =
      pageAt pageSize pgno file := by
  induction pages generalizing file with
  | nil => rfl
  | cons page rest ih =>
      have fits := fit page (by simp)
      have bound : pgno * pageSize ≤ count * pageSize :=
        Nat.mul_le_mul_right _ inside
      rw [writePages, ih (fun other member => fit other (by simp [member]))
        (length_writeAt_page fits whole)
        (fun other member => absent other (by simp [member]))]
      exact pageAt_writeAt_other fits.1 positive fits.2.2
        (Ne.symm (absent page (by simp))) (by omega)

/-- A page that is written once holds what was written. -/
theorem pageAt_writePages_of_mem {pageSize count pgno : Nat} {data : List β}
    {pages : List (Nat × List β)} {file : List β}
    (fit : ∀ page ∈ pages, Fits pageSize count page)
    (distinct : pages.Pairwise fun left right => left.1 ≠ right.1)
    (whole : file.length = count * pageSize) (member : (pgno, data) ∈ pages) :
    pageAt pageSize pgno (writePages pageSize pages file) = data := by
  induction pages generalizing file with
  | nil => cases member
  | cons page rest ih =>
      have fits := fit page (by simp)
      have restFit : ∀ other ∈ rest, Fits pageSize count other :=
        fun other later => fit other (by simp [later])
      obtain ⟨different, restDistinct⟩ := List.pairwise_cons.mp distinct
      rcases List.mem_cons.mp member with rfl | later
      · rw [writePages, pageAt_writePages_of_not_mem restFit
          (length_writeAt_page fits whole) fits.1 fits.2.1
          (fun other otherMember => Ne.symm (different other otherMember))]
        exact pageAt_writeAt_same fits.2.2
      · rw [writePages]
        exact ih restFit restDistinct (length_writeAt_page fits whole) later

/-- Resizing a file of whole pages keeps a page that stays inside, or adds a
zero page. -/
theorem pageAt_setLen {pageSize oldCount count pgno : Nat} {file : List β}
    (whole : file.length = oldCount * pageSize)
    (positive : 1 ≤ pgno) (inside : pgno ≤ count) :
    pageAt pageSize pgno (setLen (count * pageSize) file) =
      if pgno ≤ oldCount then pageAt pageSize pgno file
      else zeroPage pageSize := by
  have bound : pgno * pageSize ≤ count * pageSize :=
    Nat.mul_le_mul_right _ inside
  split
  · rename_i old
    have oldBound : pgno * pageSize ≤ oldCount * pageSize :=
      Nat.mul_le_mul_right _ old
    exact pageAt_setLen_of_le positive bound (by omega)
  · exact pageAt_setLen_of_gt bound (by omega) whole

/-- A fresh file of whole pages is all zeros. -/
theorem pageAt_setLen_nil {pageSize count pgno : Nat} (positive : 1 ≤ pgno)
    (inside : pgno ≤ count) :
    pageAt pageSize pgno (setLen (count * pageSize) ([] : List β)) =
      zeroPage pageSize := by
  have empty : ([] : List β).length = 0 * pageSize := by simp
  rw [pageAt_setLen empty positive inside, if_neg (by omega)]

end PagedFile
