import Literstream.Sync.OnDisk

/-!
# Reading a log while it grows

A snapshot of a first part of a log and incremental files from longer and longer
parts, each from where the one before ended, give the image of one snapshot of
the last part.  The parts may end inside a transaction or inside a frame.
-/

namespace Literstream

open PagedFile

namespace OnDisk

/-- A read that continues where the last one ended. -/
def readOn (pageSize : Nat) (now : Int) (pos : Position) (wal : Bytes) :
    Except SyncError (Option (StagedFile × LtxFile)) := do
  match ← walHeader wal with
  | none => return none
  | some header =>
      buildIncremental pageSize now pos wal header pos.walOffset header.salt1
        header.salt2

/-- Reads of the first bytes of a log, each at its time, on top of an image. -/
def readFrom (pageSize : Nat) (wal : Bytes) :
    List (Int × Nat) → Position → Bytes → Except SyncError Bytes
  | [], _, image => .ok image
  | (now, length) :: rest, pos, image => do
      match ← readOn pageSize now pos (wal.take length) with
      | none => readFrom pageSize wal rest pos image
      | some (staged, file) =>
          readFrom pageSize wal rest staged.newPos (applyFile image file)

/-- A snapshot first, and incremental files from there. -/
def readPrefixes (pageSize : Nat) (pos : Position) (main wal : Bytes)
    (first : Int × Nat) (reads : List (Int × Nat)) : Except SyncError Bytes := do
  let (staged, file) ← buildSnapshot pageSize first.1 pos main
    (wal.take first.2) walHeaderSize
  readFrom pageSize wal reads staged.newPos (applyFile [] file)

/-- The image and the position are those of the committed frames in the first
`length` bytes. -/
structure Captures (log : WalLog) (main : Bytes) (length : Nat)
    (pos : Position) (image : Bytes) : Prop where
  image : image = (log.database main length).committedImage log.pageSize
  offset : pos.walOffset =
    frameOffset log.pageSize (log.database main length).frames.length
  synced : 1 ≤ pos.txid

section Reads

variable {log : WalLog} {main : Bytes}

theorem database_after
    (transactions : Transactions log.pageSize (pageCount log.pageSize main)
      log.frames) (length : Nat) :
    Cut log.pageSize (pageCount log.pageSize main) log.frames
      (log.whole length) (log.database main length).frames := by
  rw [frames_database]
  exact transactions.committed _

theorem readable_database (positive : 0 < log.pageSize)
    (transactions : Transactions log.pageSize (pageCount log.pageSize main)
      log.frames) (length : Nat) :
    Readable log.pageSize (log.database main length) := by
  have cut := database_after transactions length
  refine ⟨imageOk_mainPages positive, cut.whole, ?_⟩
  intro pgno inside notLock absent
  change pgno ≤ pageCount log.pageSize (mainPages log.pageSize main)
  rw [pageCount_mainPages positive]
  by_cases empty : (log.database main length).frames = []
  · rw [empty] at inside
    exact Nat.le_trans inside (Nat.zero_le _)
  · by_contra beyond
    exact (cut.txn empty).grown pgno (Nat.not_le.mp beyond) inside notLock
      absent

theorem snapshot_captures (ok : log.Ok)
    (transactions : Transactions log.pageSize (pageCount log.pageSize main)
      log.frames)
    (small : pageCount log.pageSize main < 2 ^ 32) (now : Int)
    (pos : Position) (length : Nat) :
    ∃ staged file,
      buildSnapshot log.pageSize now pos main (log.content.take length)
        walHeaderSize = .ok (staged, file) ∧
      Captures log main length staged.newPos (applyFile [] file) := by
  have positive := isValidPageSize.pos ok.sized
  have cut := database_after transactions length
  have readable := readable_database positive transactions length
  obtain ⟨staged, file, built⟩ :=
    @buildSnapshot_total log.pageSize now pos _ ok.sized readable
  have capturing := buildSnapshot_spec positive readable imageOk_nil built
  refine ⟨staged.seen (log.content.take length).length, file, ?_, ?_⟩
  · rw [buildSnapshot_refines ok now pos small cut.tail cut.whole, built]
    rfl
  · refine ⟨capturing.image, capturing.offset, ?_⟩
    change 1 ≤ staged.newPos.txid
    rw [(buildSnapshot_staged built).txid]
    exact Nat.le_add_left 1 _

/-- A longer part has the transactions of a shorter one, and perhaps more. -/
theorem database_grows
    (transactions : Transactions log.pageSize (pageCount log.pageSize main)
      log.frames) {before later : Nat} (longer : before ≤ later) :
    ∃ next, (log.database main later).frames =
        (log.database main before).frames ++ next ∧
      FramesOk log.pageSize next ∧
      (next ≠ [] → TxnOk log.pageSize
        (sizeAfter (pageCount log.pageSize main)
          (log.database main before).frames) next) := by
  rw [frames_database, frames_database]
  exact transactions.committed_append
    (Nat.div_le_div_right (Nat.sub_le_sub_right longer _))

/-- One more read of a longer part. -/
theorem readOn_captures (ok : log.Ok)
    (transactions : Transactions log.pageSize (pageCount log.pageSize main)
      log.frames)
    {before later : Nat} (longer : before ≤ later) (now : Int)
    {pos : Position} {image : Bytes}
    (captures : Captures log main before pos image) :
    ∃ result, readOn log.pageSize now pos (log.content.take later) =
        .ok result ∧
      match result with
      | none => Captures log main later pos image
      | some (staged, file) =>
          Captures log main later staged.newPos (applyFile image file) := by
  have positive := isValidPageSize.pos ok.sized
  have mainOk : ImageOk log.pageSize (mainPages log.pageSize main) :=
    imageOk_mainPages positive
  unfold readOn
  rw [walHeader_take ok]
  by_cases short : later < walHeaderSize
  · have same : log.database main later = log.database main before := by
      rw [WalLog.database, WalLog.database, if_pos short,
        if_pos (Nat.lt_of_le_of_lt longer short)]
    rw [if_pos short]
    refine ⟨none, rfl, ?_⟩
    exact ⟨by rw [same]; exact captures.image,
      by rw [same]; exact captures.offset, captures.synced⟩
  · obtain ⟨next, added, nextOk, txn⟩ := database_grows transactions longer
    have cut := database_after transactions before
    have laterCut := database_after transactions later
    have inside : (log.database main before).frames.length ≤
        (log.database main later).frames.length := by
      rw [added, List.length_append]
      exact Nat.le_add_right _ _
    have tail : (log.database main later).frames.drop
        (log.database main before).frames.length = next := by
      rw [added, List.drop_left]
    obtain ⟨result, built⟩ := @buildIncremental_total log.pageSize now pos
      ok.sized
      { salt1 := log.salt1
        salt2 := log.salt2
        frames := (log.database main later).frames
        stale := 0 }
      (log.database main before).frames.length laterCut.whole inside
      captures.synced log.salt1 log.salt2
    have spec := buildIncremental_spec laterCut.whole built
    rw [if_neg short]
    refine ⟨result.map fun pair =>
      (pair.1.seen (log.content.take later).length, pair.2), ?_, ?_⟩
    · change buildIncremental _ _ _ _ _ pos.walOffset _ _ = _
      rw [captures.offset, buildIncremental_refines ok now pos laterCut.tail
        inside laterCut.whole]
      change Except.map _ (Literstream.buildIncremental _ _ _ _ _ log.salt1
        log.salt2) = _
      rw [built]
      rfl
    · cases result with
      | none =>
          change List.drop _ (log.database main later).frames = [] at spec
          rw [tail] at spec
          rw [spec, List.append_nil] at added
          refine ⟨?_, by rw [added]; exact captures.offset, captures.synced⟩
          rw [captures.image, Sqlite.committedImage, Sqlite.committedImage,
            added]
          rfl
      | some pair =>
          obtain ⟨nonempty, _, _, offset, commit, pages⟩ := spec
          obtain ⟨_, txid, sized, _⟩ := buildIncremental_staged built
          dsimp only at nonempty commit pages
          rw [tail] at nonempty commit pages
          have grown := (txn nonempty).grown
          rw [← pageCount_mainPages positive,
            ← pageCount_overlay_eq positive mainOk cut.whole] at grown
          refine ⟨?_, offset, ?_⟩
          · calc
              applyFile image pair.2
                  = overlay log.pageSize image next :=
                applyFile_eq_overlay positive
                  (by
                    rw [captures.image]
                    exact mainOk.overlay positive cut.whole) sized nextOk
                  nonempty commit pages
              _ = overlay log.pageSize (overlay log.pageSize
                    (mainPages log.pageSize main)
                    (log.database main before).frames) next := by
                rw [captures.image]
                rfl
              _ = overlay log.pageSize (mainPages log.pageSize main)
                    ((log.database main before).frames ++ next) :=
                (overlay_append positive mainOk cut.whole nextOk nonempty
                  grown).symm
              _ = (log.database main later).committedImage log.pageSize := by
                rw [← added]
                rfl
          · change 1 ≤ pair.1.newPos.txid
            rw [txid]
            exact Nat.le_add_left 1 _

/-- Any number of reads of longer and longer parts. -/
theorem readFrom_captures (ok : log.Ok)
    (transactions : Transactions log.pageSize (pageCount log.pageSize main)
      log.frames)
    {reads : List (Int × Nat)} {before : Nat} {pos : Position} {image : Bytes}
    (growing : (before :: reads.map Prod.snd).Pairwise (· ≤ ·))
    (captures : Captures log main before pos image) :
    readFrom log.pageSize log.content reads pos image = .ok
      ((log.database main ((reads.map Prod.snd).getLast?.getD
        before)).committedImage log.pageSize) := by
  induction reads generalizing before pos image with
  | nil => exact congrArg Except.ok captures.image
  | cons read rest ih =>
      obtain ⟨now, later⟩ := read
      simp only [List.map_cons] at growing
      obtain ⟨bounds, restGrowing⟩ := List.pairwise_cons.mp growing
      obtain ⟨result, done, outcome⟩ := readOn_captures ok transactions
        (bounds later List.mem_cons_self) now captures
      have last : (((now, later) :: rest).map Prod.snd).getLast?.getD before =
          (rest.map Prod.snd).getLast?.getD later := by
        rw [List.map_cons, List.getLast?_cons]
        rfl
      rw [last, readFrom, done]
      cases result with
      | none => exact ih restGrowing outcome
      | some built => exact ih restGrowing outcome

/-- Snapshot and incremental files of longer and longer parts give what one
snapshot of the last part gives. -/
theorem prefixes_agree (ok : log.Ok)
    (transactions : Transactions log.pageSize (pageCount log.pageSize main)
      log.frames)
    (small : pageCount log.pageSize main < 2 ^ 32) (pos : Position)
    (first : Int × Nat) (reads : List (Int × Nat))
    (growing : ((first :: reads).map Prod.snd).Pairwise (· ≤ ·)) (now : Int)
    (other : Position) :
    ∃ image staged file,
      readPrefixes log.pageSize pos main log.content first reads = .ok image ∧
        buildSnapshot log.pageSize now other main
          (log.content.take ((reads.map Prod.snd).getLast?.getD first.2))
          walHeaderSize = .ok (staged, file) ∧
        applyFile [] file = image := by
  obtain ⟨begun, firstFile, read, captures⟩ :=
    snapshot_captures ok transactions small first.1 pos first.2
  obtain ⟨staged, file, built, last⟩ :=
    snapshot_captures ok transactions small now other
      ((reads.map Prod.snd).getLast?.getD first.2)
  refine ⟨_, staged, file, ?_, built, last.image⟩
  rw [readPrefixes, read]
  exact readFrom_captures ok transactions growing captures

/-- Two transactions, the second of which makes the database smaller. -/
def twoTransactions : WalLog where
  byteOrder := .big
  pageSize := 512
  seq := 0
  salt1 := 1
  salt2 := 2
  frames :=
    [⟨2, 0, List.replicate 512 7⟩, ⟨1, 2, List.replicate 512 8⟩,
      ⟨1, 1, List.replicate 512 9⟩]
  leftover := [0]

theorem twoTransactions_ok : twoTransactions.Ok where
  sized := by decide
  seq := by decide
  salt1 := by decide
  salt2 := by decide
  frames := by
    intro frame member
    simp only [twoTransactions, List.mem_cons, List.not_mem_nil, or_false]
      at member
    rcases member with rfl | rfl | rfl <;>
      exact ⟨List.length_replicate, by decide, by decide⟩
  ends := .of_short (by decide)

theorem pageCount_zeros :
    pageCount 512 (List.replicate 512 0) = 1 := by
  rw [pageCount, List.length_replicate]

theorem twoTransactions_follow :
    Transactions 512 (pageCount 512 (List.replicate 512 0))
      twoTransactions.frames := by
  have each : ∀ frame ∈ twoTransactions.frames, FrameOk 512 frame := by
    intro frame member
    simp only [twoTransactions, List.mem_cons, List.not_mem_nil, or_false]
      at member
    rcases member with rfl | rfl | rfl <;>
      exact ⟨by decide, by decide, List.length_replicate⟩
  rw [pageCount_zeros]
  refine @Transactions.transaction 512 1 [⟨2, 0, List.replicate 512 7⟩]
    [⟨1, 1, List.replicate 512 9⟩] ⟨1, 2, List.replicate 512 8⟩ ?_
    ⟨⟨?_, ?_⟩, List.cons_ne_nil _ _, ?_⟩ ?_
  · intro frame member
    rw [List.mem_singleton.mp member]
  · exact fun frame member => each frame (List.mem_append_left _ member)
  · intro frame isLast
    cases isLast
    exact ⟨by decide, by decide⟩
  · intro pgno beyond inside _
    change pgno ≤ 2 at inside
    have page : pgno = 2 := by omega
    subst page
    exact Option.some_ne_none (List.replicate 512 7)
  · refine @Transactions.transaction 512 2 [] []
      ⟨1, 1, List.replicate 512 9⟩ (by simp)
      ⟨⟨?_, ?_⟩, List.cons_ne_nil _ _, ?_⟩ (.openTail (by simp) (by simp))
    · exact fun frame member => each frame
        (List.mem_cons_of_mem _ (List.mem_cons_of_mem _ member))
    · intro frame isLast
      cases isLast
      exact ⟨by decide, by decide⟩
    · intro pgno beyond inside _
      change pgno ≤ 1 at inside
      omega

theorem prefixes_agree_cut :
    ∃ image staged file,
      readPrefixes 512 .default (List.replicate 512 0) twoTransactions.content
          (0, 600) [(1, 1200), (2, 1640)] = .ok image ∧
        buildSnapshot 512 3 .default (List.replicate 512 0)
          (twoTransactions.content.take 1640) walHeaderSize =
            .ok (staged, file) ∧
        applyFile [] file = image :=
  prefixes_agree twoTransactions_ok twoTransactions_follow
    (by rw [twoTransactions, pageCount_zeros]; decide) .default
    (0, 600) [(1, 1200), (2, 1640)] (by decide) 3 .default

end Reads

end OnDisk

end Literstream
