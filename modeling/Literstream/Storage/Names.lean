import Literstream.Lib.Hex
import Literstream.Ltx.Format
import Mathlib.Data.List.Infix
import Mathlib.Data.List.Sort
import Mathlib.Data.List.TakeWhile

/-!
# Object names

A key is the directory of its level and the padded range of its TXIDs.  Strings
are their bytes.  Percent-encoding the parts of a path is left to the object
store.
-/

namespace Literstream

namespace Storage

/-- `'/'`. -/
def slash : UInt8 := 0x2f

/-- `'-'`. -/
def dash : UInt8 := 0x2d

/-- `'+'`. -/
def plus : UInt8 := 0x2b

/-- `".ltx"`. -/
def ltxSuffix : Bytes := [0x2e, 0x6c, 0x74, 0x78]

/-- The parts of a path. -/
abbrev ObjectPath := List Bytes

/-- Split at the slashes and encode the parts; empty ones are dropped. -/
def ObjectPath.ofString (encodePart : Bytes → Bytes) (path : Bytes) :
    ObjectPath :=
  ((path.splitOn slash).map encodePart).filter fun part => part ≠ []

/-- The last part of a path. -/
def ObjectPath.filename (path : ObjectPath) : Bytes := path.getLast?.getD []

/-- `<min>-<max>.ltx`. -/
def ltxFilename (minTxid maxTxid : UInt64) : Bytes :=
  Hex.padded 16 minTxid.toNat ++
    dash :: (Hex.padded 16 maxTxid.toNat ++ ltxSuffix)

structure ReplicaClient where
  keyPrefix : Bytes
deriving DecidableEq, Repr

namespace ReplicaClient

/-- The directory of a level. -/
def levelDir (client : ReplicaClient) (level : UInt32) : Bytes :=
  if client.keyPrefix.isEmpty then Hex.padded 4 level.toNat
  else client.keyPrefix ++ slash :: Hex.padded 4 level.toNat

def ltxKey (encodePart : Bytes → Bytes) (client : ReplicaClient)
    (level : UInt32) (minTxid maxTxid : UInt64) : ObjectPath :=
  ObjectPath.ofString encodePart
    (client.levelDir level ++ slash :: ltxFilename minTxid maxTxid)

end ReplicaClient

/-! ## Reading a name -/

/-- Split at the first separator. -/
def splitOnce (separator : UInt8) (string : Bytes) : Option (Bytes × Bytes) :=
  match string.span (· != separator) with
  | (_, []) => none
  | (front, _ :: back) => some (front, back)

/-- Hexadecimal digits as a machine word. -/
def readDigits (digits : Bytes) : Option UInt64 :=
  (Hex.read (2 ^ 64) 0 digits).map UInt64.ofNat

/-- A hexadecimal number, with or without a plus sign. -/
def fromStrRadix : Bytes → Option UInt64
  | [] => none
  | [byte] => if byte = plus ∨ byte = dash then none else readDigits [byte]
  | byte :: rest =>
      if byte = plus then readDigits rest else readDigits (byte :: rest)

/-- The TXID range of `<min>-<max>.ltx`. -/
def parseLtxFilename (name : Bytes) : Option (UInt64 × UInt64) := do
  let stem ← name.dropSuffix? ltxSuffix
  let (low, high) ← splitOnce dash stem
  let minTxid ← fromStrRadix low
  let maxTxid ← fromStrRadix high
  return (minTxid, maxTxid)

/-! ## Listing a level -/

/-- What the object store tells of an object. -/
structure ObjectMeta where
  location : ObjectPath
  lastModified : Int
  size : UInt64
deriving DecidableEq, Repr

structure LtxFileInfo where
  level : UInt32
  minTxid : UInt64
  maxTxid : UInt64
  size : UInt64
  createdAt : Option Int
deriving DecidableEq, Repr

section Listing

variable {ε : Type}

/-- The objects of a stream whose names parse. -/
def collect (level : UInt32) :
    List (Except ε ObjectMeta) → Except ε (List LtxFileInfo)
  | [] => .ok []
  | .error error :: _ => .error error
  | .ok object :: rest =>
      match parseLtxFilename object.location.filename with
      | none => collect level rest
      | some (minTxid, maxTxid) => do
          let out ← collect level rest
          return {
            level := level
            minTxid := minTxid
            maxTxid := maxTxid
            size := object.size
            createdAt := some object.lastModified } :: out

def ReplicaClient.listLtx (encodePart : Bytes → Bytes)
    (list : ObjectPath → List (Except ε ObjectMeta)) (client : ReplicaClient)
    (level : UInt32) : Except ε (List LtxFileInfo) := do
  let dir := ObjectPath.ofString encodePart (client.levelDir level)
  let out ← collect level (list dir)
  return out.insertionSort fun left right =>
    left.minTxid < right.minTxid ∨
      left.minTxid = right.minTxid ∧ left.maxTxid ≤ right.maxTxid

end Listing

example : parseLtxFilename (ltxFilename 1 0xffffffffffffffff) =
    some (1, 0xffffffffffffffff) := by
  decide +kernel

/-! ## What the reader accepts -/

theorem splitOnce_eq_some {separator : UInt8} {string front back : Bytes} :
    splitOnce separator string = some (front, back) ↔
      string = front ++ separator :: back ∧ separator ∉ front := by
  unfold splitOnce
  rw [List.span_eq_takeWhile_dropWhile]
  constructor
  · intro found
    split at found
    · cases found
    · rename_i taken byte rest same
      cases found
      obtain ⟨takenIs, restIs⟩ := Prod.mk.inj same
      have whole := List.takeWhile_append_dropWhile
        (p := (· != separator)) (l := string)
      have stops := List.head?_dropWhile_not (· != separator) string
      rw [restIs, List.head?_cons] at stops
      have last : byte = separator := by simpa using stops
      rw [takenIs, restIs, last] at whole
      refine ⟨whole.symm, ?_⟩
      intro member
      rw [← takenIs] at member
      have other := List.mem_takeWhile_imp member
      simp at other
  · rintro ⟨rfl, absent⟩
    have others : ∀ byte ∈ front, (byte != separator) = true := by
      intro byte member
      rw [bne_iff_ne]
      rintro rfl
      exact absent member
    rw [List.takeWhile_append_of_pos others,
      List.dropWhile_append_of_pos others]
    simp

theorem readDigits_fixed (value : UInt64) :
    readDigits (Hex.fixed 16 value.toNat) = some value := by
  have fits : value.toNat < 16 ^ 16 := value.toNat_lt
  have whole := Nat.mod_eq_of_lt fits
  rw [readDigits, Hex.read_fixed (by omega), whole]
  simp

theorem digit_ne_plus {small : Nat} (bound : small < 16) :
    Hex.digit small ≠ plus := by
  have all : ∀ digits : Fin 16, Hex.digit digits.val ≠ plus := by decide
  exact all ⟨small, bound⟩

theorem toDigit_dash : Hex.toDigit dash = none := by decide

theorem padded_word (value : UInt64) :
    Hex.padded 16 value.toNat = Hex.fixed 16 value.toNat :=
  Hex.padded_eq_fixed value.toNat_lt

/-- A word that was written is read back. -/
theorem fromStrRadix_padded (value : UInt64) :
    fromStrRadix (Hex.padded 16 value.toNat) = some value := by
  have read := readDigits_fixed value
  have signless : ∀ byte ∈ Hex.fixed 16 value.toNat, byte ≠ plus := by
    intro byte member
    obtain ⟨small, bound, rfl⟩ := Hex.mem_fixed member
    exact digit_ne_plus bound
  have length := Hex.length_fixed 16 value.toNat
  rw [padded_word]
  cases digits : Hex.fixed 16 value.toNat with
  | nil =>
      rw [digits] at length
      cases length
  | cons first rest =>
      rw [digits] at read signless length
      cases rest with
      | nil => cases length
      | cons second rest =>
          rw [fromStrRadix, if_neg (signless first List.mem_cons_self)]
          · exact read
          · simp

/-- The digits behind the sign. -/
theorem fromStrRadix_eq_some {source : Bytes} {value : UInt64}
    (read : fromStrRadix source = some value) :
    readDigits source = some value ∨
      ∃ digits, source = plus :: digits ∧ readDigits digits = some value := by
  unfold fromStrRadix at read
  split at read
  · cases read
  · split at read
    · cases read
    · exact .inl read
  · split at read
    · rename_i same
      rw [same]
      exact .inr ⟨_, rfl, read⟩
    · exact .inl read

theorem readDigits_eq_some {digits : Bytes} {value : UInt64}
    (read : readDigits digits = some value) :
    Hex.read (2 ^ 64) 0 digits = some value.toNat := by
  unfold readDigits at read
  obtain ⟨number, found, rfl⟩ := Option.map_eq_some_iff.mp read
  rw [UInt64.toNat_ofNat', Nat.mod_eq_of_lt (Hex.lt_of_read (by decide) found),
    found]

theorem dash_not_mem {source : Bytes} {value : UInt64}
    (read : fromStrRadix source = some value) : dash ∉ source := by
  have absent {digits : Bytes} (read : readDigits digits = some value) :
      dash ∉ digits := by
    intro member
    obtain ⟨_, found⟩ := Hex.toDigit_of_read (readDigits_eq_some read) _ member
    rw [toDigit_dash] at found
    cases found
  rcases fromStrRadix_eq_some read with plain | ⟨digits, rfl, signed⟩
  · exact absent plain
  · rw [List.mem_cons]
    rintro (same | member)
    · cases same
    · exact absent signed member

/-- Neither a sign nor an upper-case digit. -/
def Lower (byte : UInt8) : Prop := byte ≠ plus ∧ ¬(65 ≤ byte ∧ byte ≤ 70)

/-- Sixteen digits without a sign or an upper-case one are those written. -/
theorem padded_of_fromStrRadix {source : Bytes} {value : UInt64}
    (length : source.length = 16)
    (lower : ∀ byte ∈ source, Lower byte)
    (read : fromStrRadix source = some value) :
    Hex.padded 16 value.toNat = source := by
  rcases fromStrRadix_eq_some read with plain | ⟨digits, rfl, _⟩
  · have written := Hex.fixed_of_read (fun byte member =>
      (lower byte member).2) (readDigits_eq_some plain)
    rw [padded_word, ← length]
    exact written
  · exact absurd rfl (lower plus List.mem_cons_self).1

theorem padded_lower (value : UInt64) :
    ∀ byte ∈ Hex.padded 16 value.toNat, Lower byte := by
  have all : ∀ digits : Fin 16, Hex.digit digits.val ≠ plus ∧
      ¬(65 ≤ Hex.digit digits.val ∧ Hex.digit digits.val ≤ 70) := by
    decide
  intro byte member
  rw [padded_word] at member
  obtain ⟨small, bound, rfl⟩ := Hex.mem_fixed member
  exact all ⟨small, bound⟩

theorem parseLtxFilename_eq_some {name : Bytes} {minTxid maxTxid : UInt64} :
    parseLtxFilename name = some (minTxid, maxTxid) ↔
      ∃ low high, name = low ++ dash :: (high ++ ltxSuffix) ∧
        fromStrRadix low = some minTxid ∧ fromStrRadix high = some maxTxid := by
  unfold parseLtxFilename
  constructor
  · intro parsed
    obtain ⟨stem, cut, parsed⟩ := Option.bind_eq_some_iff.mp parsed
    obtain ⟨⟨low, high⟩, divided, parsed⟩ := Option.bind_eq_some_iff.mp parsed
    obtain ⟨first, lowRead, parsed⟩ := Option.bind_eq_some_iff.mp parsed
    obtain ⟨second, highRead, returned⟩ := Option.bind_eq_some_iff.mp parsed
    cases returned
    obtain ⟨tail, whole, same⟩ := List.dropSuffix?_eq_some_iff.mp cut
    rw [beq_iff_eq] at same
    obtain ⟨stemIs, _⟩ := splitOnce_eq_some.mp divided
    refine ⟨low, high, ?_, lowRead, highRead⟩
    rw [whole, stemIs, same, List.append_assoc, List.cons_append]
  · rintro ⟨low, high, rfl, lowRead, highRead⟩
    have cut : (low ++ dash :: (high ++ ltxSuffix)).dropSuffix? ltxSuffix =
        some (low ++ dash :: high) := by
      refine List.dropSuffix?_eq_some_iff.mpr
        ⟨ltxSuffix, ?_, beq_self_eq_true _⟩
      rw [List.append_assoc, List.cons_append]
    have divided : splitOnce dash (low ++ dash :: high) = some (low, high) :=
      splitOnce_eq_some.mpr ⟨rfl, dash_not_mem lowRead⟩
    rw [cut]
    simp [divided, lowRead, highRead]

/-- Two parts of sixteen digits, without a sign or an upper-case digit. -/
def CanonicalName (name : Bytes) : Prop :=
  ∃ low high, name = low ++ dash :: (high ++ ltxSuffix) ∧
    dash ∉ low ∧ low.length = 16 ∧ high.length = 16 ∧
    ∀ byte ∈ low ++ high, Lower byte

theorem length_padded (value : UInt64) :
    (Hex.padded 16 value.toNat).length = 16 := by
  rw [padded_word, Hex.length_fixed]

theorem parse_ltxFilename (minTxid maxTxid : UInt64) :
    parseLtxFilename (ltxFilename minTxid maxTxid) =
      some (minTxid, maxTxid) :=
  parseLtxFilename_eq_some.mpr ⟨_, _, rfl, fromStrRadix_padded minTxid,
    fromStrRadix_padded maxTxid⟩

/-- The name of a range that was read is the name read, when it is canonical. -/
theorem ltxFilename_of_parse {name : Bytes} {minTxid maxTxid : UInt64}
    (parsed : parseLtxFilename name = some (minTxid, maxTxid)) :
    ltxFilename minTxid maxTxid = name ↔ CanonicalName name := by
  constructor
  · rintro rfl
    refine ⟨_, _, rfl, dash_not_mem (fromStrRadix_padded minTxid),
      length_padded minTxid, length_padded maxTxid, ?_⟩
    intro byte member
    rcases List.mem_append.mp member with low | high
    · exact padded_lower minTxid byte low
    · exact padded_lower maxTxid byte high
  · rintro ⟨low, high, rfl, dashless, lowLength, highLength, lower⟩
    obtain ⟨front, back, same, lowRead, highRead⟩ :=
      parseLtxFilename_eq_some.mp parsed
    have first := splitOnce_eq_some.mpr ⟨same, dash_not_mem lowRead⟩
    rw [splitOnce_eq_some.mpr ⟨rfl, dashless⟩] at first
    obtain ⟨rfl, tails⟩ := Prod.mk.inj (Option.some.inj first)
    rw [List.append_cancel_right tails] at highLength lower ⊢
    rw [ltxFilename,
      padded_of_fromStrRadix lowLength
        (fun byte member => lower byte (List.mem_append_left _ member)) lowRead,
      padded_of_fromStrRadix highLength
        (fun byte member => lower byte (List.mem_append_right _ member))
        highRead]

/-- Names compare as their ranges do. -/
theorem ltxFilename_lt_iff (left right : UInt64 × UInt64) :
    ltxFilename left.1 left.2 < ltxFilename right.1 right.2 ↔
      left.1 < right.1 ∨ left.1 = right.1 ∧ left.2 < right.2 := by
  have words (first second : UInt64) :
      Hex.padded 16 first.toNat < Hex.padded 16 second.toNat ↔
        first < second := by
    rw [padded_word, padded_word,
      Hex.fixed_lt_fixed first.toNat_lt second.toNat_lt,
      UInt64.lt_iff_toNat_lt]
  have same (first second : UInt64) :
      Hex.padded 16 first.toNat = Hex.padded 16 second.toNat ↔
        first = second := by
    constructor
    · intro equal
      have read := fromStrRadix_padded first
      rw [equal, fromStrRadix_padded] at read
      exact (Option.some.inj read).symm
    · rintro rfl
      rfl
  rw [ltxFilename, ltxFilename,
    Hex.append_lt_append_iff (by rw [length_padded, length_padded]),
    List.cons_lt_cons_iff,
    Hex.append_lt_append_iff (by rw [length_padded, length_padded]),
    words, words, same, same]
  have irreflexive : ¬ ltxSuffix < ltxSuffix := List.lt_irrefl _
  have dashes : ¬ dash < dash := UInt8.lt_irrefl _
  simp only [irreflexive, dashes, true_and, and_false, false_or, or_false]

/-! ## Addresses -/

/-- A letter, a digit, a dash or a dot. -/
def Plain (byte : UInt8) : Prop :=
  48 ≤ byte ∧ byte ≤ 57 ∨ 65 ≤ byte ∧ byte ≤ 90 ∨ 97 ≤ byte ∧ byte ≤ 122 ∨
    byte = dash ∨ byte = 0x2e

instance (byte : UInt8) : Decidable (Plain byte) := by
  unfold Plain
  infer_instance

/-- Plain parts are not encoded, except for `.` and `..`. -/
def LeavesPlain (encodePart : Bytes → Bytes) : Prop :=
  ∀ part, (∀ byte ∈ part, Plain byte) → part ≠ [0x2e] → part ≠ [0x2e, 0x2e] →
    encodePart part = part

theorem plain_ltxFilename (minTxid maxTxid : UInt64) :
    ∀ byte ∈ ltxFilename minTxid maxTxid, Plain byte := by
  have digits : ∀ digit : Fin 16, Plain (Hex.digit digit.val) := by decide
  have padded (value : UInt64) :
      ∀ byte ∈ Hex.padded 16 value.toNat, Plain byte := by
    intro byte member
    rw [padded_word] at member
    obtain ⟨small, bound, rfl⟩ := Hex.mem_fixed member
    exact digits ⟨small, bound⟩
  have ending : ∀ byte ∈ ltxSuffix, Plain byte := by decide +kernel
  intro byte member
  rcases List.mem_append.mp member with low | rest
  · exact padded minTxid byte low
  · rcases List.mem_cons.mp rest with rfl | rest
    · decide
    · rcases List.mem_append.mp rest with high | last
      · exact padded maxTxid byte high
      · exact ending byte last

namespace ObjectPath

theorem ofString_append (encodePart : Bytes → Bytes) (front back : Bytes) :
    ofString encodePart (front ++ slash :: back) =
      ofString encodePart front ++ ofString encodePart back := by
  rw [ofString, List.splitOn_append_cons_self, List.map_append,
    List.filter_append]
  rfl

theorem ofString_ltxFilename {encodePart : Bytes → Bytes}
    (leaves : LeavesPlain encodePart) (minTxid maxTxid : UInt64) :
    ofString encodePart (ltxFilename minTxid maxTxid) =
      [ltxFilename minTxid maxTxid] := by
  have plain := plain_ltxFilename minTxid maxTxid
  have slashless : slash ∉ ltxFilename minTxid maxTxid := by
    intro member
    exact absurd (plain slash member) (by decide)
  have long : 2 < (ltxFilename minTxid maxTxid).length := by
    rw [ltxFilename, List.length_append, length_padded]
    omega
  have kept : encodePart (ltxFilename minTxid maxTxid) =
      ltxFilename minTxid maxTxid := by
    apply leaves _ plain
    · intro dot
      rw [dot] at long
      exact absurd long (by decide)
    · intro dots
      rw [dots] at long
      exact absurd long (by decide)
  have present : ltxFilename minTxid maxTxid ≠ [] := by
    intro empty
    rw [empty] at long
    exact absurd long (by decide)
  rw [ofString, List.splitOn_eq_singleton slashless,
    List.map_singleton, kept, List.filter_cons_of_pos (by simpa using present),
    List.filter_nil]

end ObjectPath

/-- The directory of a level as a path. -/
def ReplicaClient.levelPath (encodePart : Bytes → Bytes)
    (client : ReplicaClient) (level : UInt32) : ObjectPath :=
  ObjectPath.ofString encodePart (client.levelDir level)

theorem ReplicaClient.ltxKey_eq {encodePart : Bytes → Bytes}
    (leaves : LeavesPlain encodePart) (client : ReplicaClient) (level : UInt32)
    (minTxid maxTxid : UInt64) :
    client.ltxKey encodePart level minTxid maxTxid =
      client.levelPath encodePart level ++ [ltxFilename minTxid maxTxid] := by
  rw [ltxKey, ObjectPath.ofString_append,
    ObjectPath.ofString_ltxFilename leaves]
  rfl

theorem ObjectPath.eq_append_iff {location dir : ObjectPath} {name : Bytes}
    (named : name ≠ []) :
    dir ++ [name] = location ↔
      location.dropLast = dir ∧ name = location.filename := by
  constructor
  · rintro rfl
    simp [filename]
  · rintro ⟨rfl, same⟩
    have present : location ≠ [] := by
      rintro rfl
      exact named same
    rw [same, filename, List.getLast?_eq_some_getLast present, Option.getD_some,
      List.dropLast_append_getLast present]

theorem mem_collect {ε : Type} {level : UInt32}
    {stream : List (Except ε ObjectMeta)} {out : List LtxFileInfo}
    (listed : collect level stream = .ok out) {info : LtxFileInfo}
    (member : info ∈ out) :
    info.level = level ∧ ∃ object, .ok object ∈ stream ∧
      parseLtxFilename object.location.filename =
        some (info.minTxid, info.maxTxid) := by
  induction stream generalizing out with
  | nil =>
      cases listed
      cases member
  | cons entry rest ih =>
      cases entry with
      | error error => cases listed
      | ok object =>
          rw [collect] at listed
          split at listed
          · obtain ⟨same, object, later, parsed⟩ := ih listed member
            exact ⟨same, object, List.mem_cons_of_mem _ later, parsed⟩
          · rename_i minTxid maxTxid parsed
            obtain ⟨others, listedRest, returned⟩ := bind_eq_ok.mp listed
            cases returned
            rcases List.mem_cons.mp member with rfl | later
            · exact ⟨rfl, object, List.mem_cons_self, parsed⟩
            · obtain ⟨same, object, later, parsed⟩ := ih listedRest later
              exact ⟨same, object, List.mem_cons_of_mem _ later, parsed⟩

/-- What is written is read back and stands in the order of the ranges.  What is
read back is written so, and addressed by its range, when the object lies in the
directory of the level under a canonical name. -/
theorem listed_addressed_iff {ε : Type} {encodePart : Bytes → Bytes}
    (leaves : LeavesPlain encodePart) (client : ReplicaClient) :
    (∀ level minTxid maxTxid,
      parseLtxFilename
          (client.ltxKey encodePart level minTxid maxTxid).filename =
        some (minTxid, maxTxid)) ∧
    (∀ left right : UInt64 × UInt64,
      ltxFilename left.1 left.2 < ltxFilename right.1 right.2 ↔
        left.1 < right.1 ∨ left.1 = right.1 ∧ left.2 < right.2) ∧
    (∀ name minTxid maxTxid,
      parseLtxFilename name = some (minTxid, maxTxid) →
        (ltxFilename minTxid maxTxid = name ↔ CanonicalName name)) ∧
    (∀ (list : ObjectPath → List (Except ε ObjectMeta)) level out,
      client.listLtx encodePart list level = .ok out →
        ∀ info ∈ out, ∃ object,
          .ok object ∈ list (client.levelPath encodePart level) ∧
            parseLtxFilename object.location.filename =
              some (info.minTxid, info.maxTxid) ∧
            (client.ltxKey encodePart info.level info.minTxid info.maxTxid =
                object.location ↔
              object.location.dropLast = client.levelPath encodePart level ∧
                CanonicalName object.location.filename)) := by
  refine ⟨?_, ltxFilename_lt_iff, fun _ _ _ => ltxFilename_of_parse, ?_⟩
  · intro level minTxid maxTxid
    rw [ReplicaClient.ltxKey_eq leaves, ObjectPath.filename,
      List.getLast?_concat, Option.getD_some]
    exact parse_ltxFilename minTxid maxTxid
  · intro list level out listed info member
    obtain ⟨sorted, collected, returned⟩ := bind_eq_ok.mp listed
    cases returned
    have held := (List.perm_insertionSort _ sorted).mem_iff.mp member
    obtain ⟨same, object, there, parsed⟩ := mem_collect collected held
    have named : ltxFilename info.minTxid info.maxTxid ≠ [] := by
      intro empty
      have written := parse_ltxFilename info.minTxid info.maxTxid
      rw [empty] at written
      cases written
    refine ⟨object, there, parsed, ?_⟩
    rw [same, ReplicaClient.ltxKey_eq leaves, ObjectPath.eq_append_iff named,
      ltxFilename_of_parse parsed]

/-- `"1-2.ltx"`. -/
def shortName : Bytes := [0x31, 0x2d, 0x32, 0x2e, 0x6c, 0x74, 0x78]

def rootClient : ReplicaClient := ⟨[]⟩

/-- The object is listed, and there is none where its range is looked for. -/
theorem shortName_unaddressed :
    parseLtxFilename shortName = some (1, 2) ∧ ltxFilename 1 2 ≠ shortName ∧
      rootClient.listLtx id
          (fun dir => [Except.ok (ε := Unit) ⟨dir ++ [shortName], 0, 0⟩]) 0 =
        .ok [⟨0, 1, 2, 0, some 0⟩] ∧
      rootClient.ltxKey id 0 1 2 ∉
        [rootClient.levelPath id 0 ++ [shortName]] := by
  decide +kernel

theorem listed_addressed_iff_short :
    parseLtxFilename (rootClient.ltxKey id 0 1 2).filename = some (1, 2) ∧
      (ltxFilename 1 2 = shortName ↔ CanonicalName shortName) :=
  ⟨(@listed_addressed_iff Unit id (fun _ _ _ _ => rfl) rootClient).1 0 1 2,
    (@listed_addressed_iff Unit id (fun _ _ _ _ => rfl) rootClient).2.2.1
      shortName 1 2 (by decide +kernel)⟩

end Storage

end Literstream
