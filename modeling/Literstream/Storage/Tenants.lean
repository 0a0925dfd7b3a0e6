import Literstream.Lib.OrderedMap
import Literstream.Lib.Sharing
import Literstream.Storage
import Literstream.Storage.Names

/-!
# Replicas that share an object store

Clients with different prefixes use one store of paths and bytes.  A client
whose level directories hold no object of another one has a map from addresses
to objects for itself.
-/

namespace Literstream

namespace Storage

open Std

/-- An object and the time of its last write. -/
structure StoredObject where
  bytes : Bytes
  lastModified : Int
deriving DecidableEq

/-- The operations of an object store, and what it holds at a path. -/
structure ObjectStore (σ : Type) where
  holds : σ → ObjectPath → Option StoredObject
  put : σ → ObjectPath → StoredObject → σ
  /-- `PutMode::Create`; none when there is an object already. -/
  create : σ → ObjectPath → StoredObject → Option σ
  get : σ → ObjectPath → Option Bytes
  head : σ → ObjectPath → Option UInt64
  delete : σ → ObjectPath → σ
  list : σ → ObjectPath → List ObjectMeta

/-- What is told of the object at a path. -/
def ObjectMeta.of (path : ObjectPath) (object : StoredObject) : ObjectMeta where
  location := path
  lastModified := object.lastModified
  size := UInt64.ofNat object.bytes.length

/-- The path lies in the directory, at any depth. -/
def ObjectPath.Inside (path dir : ObjectPath) : Prop :=
  dir <+: path ∧ dir ≠ path

instance (path dir : ObjectPath) : Decidable (path.Inside dir) :=
  inferInstanceAs (Decidable (_ ∧ _))

/-- A listing tells of every object in the directory once, in any order. -/
structure ObjectStore.Lawful {σ : Type} (store : ObjectStore σ) : Prop where
  put : ∀ state path object other, store.holds (store.put state path object)
    other = if other = path then some object else store.holds state other
  create : ∀ state path object, store.create state path object =
    if store.holds state path = none then some (store.put state path object)
    else none
  get : ∀ state path,
    store.get state path = (store.holds state path).map StoredObject.bytes
  head : ∀ state path, store.head state path =
    (store.holds state path).map fun object => (ObjectMeta.of path object).size
  delete : ∀ state path other, store.holds (store.delete state path) other =
    if other = path then none else store.holds state other
  mem_list : ∀ state dir told, told ∈ store.list state dir ↔
    told.location.Inside dir ∧ ∃ object,
      store.holds state told.location = some object ∧
        told = ObjectMeta.of told.location object
  distinct : ∀ state dir, (store.list state dir).Pairwise fun left right =>
    left.location ≠ right.location

/-- Where a client keeps an LTX object. -/
structure LtxAddress where
  level : UInt32
  minTxid : UInt64
  maxTxid : UInt64
deriving DecidableEq

def LtxAddress.cmp : LtxAddress → LtxAddress → Ordering :=
  compareLex (compareOn LtxAddress.level)
    (compareLex (compareOn LtxAddress.minTxid) (compareOn LtxAddress.maxTxid))

instance : TransCmp LtxAddress.cmp := by
  unfold LtxAddress.cmp
  infer_instance

instance : LawfulEqCmp LtxAddress.cmp where
  eq_of_compare := by
    intro left right equal
    simp only [LtxAddress.cmp, compareLex, compareOn, Ordering.then_eq_eq,
      LawfulEqCmp.compare_eq_iff_eq] at equal
    obtain ⟨level, minTxid, maxTxid⟩ := equal
    cases left
    cases right
    simp_all

/-- A call of the client; a multipart upload that is completed is a `putLtx` of
its parts. -/
inductive ClientCall where
  | putLtx (address : LtxAddress) (bytes : Bytes)
  | putLtxCas (address : LtxAddress) (bytes : Bytes)
  | getLtx (address : LtxAddress)
  | ltxSize (address : LtxAddress)
  | deleteLtx (address : LtxAddress)
  | listLtx (level : UInt32)

inductive ClientReply where
  | done
  | outcome (outcome : PutOutcome)
  | bytes (bytes : Bytes)
  | size (size : UInt64)
  | files (files : List LtxFileInfo)
  | failed
deriving DecidableEq

/-- A request reaches the store, or fails before it does, or its reply is
lost. -/
inductive Delivery where
  | arrives
  | fails
  | losesReply

structure ClientAction where
  call : ClientCall
  now : Int
  delivery : Delivery

/-- The reply and the state that a delivery makes of a call. -/
def Delivery.of {σ : Type} (state : σ) (performed : ClientReply × σ) :
    Delivery → ClientReply × σ
  | .arrives => performed
  | .fails => (.failed, state)
  | .losesReply => (.failed, performed.2)

section Clients

variable {σ : Type} (store : ObjectStore σ) (encodePart : Bytes → Bytes)

namespace ReplicaClient

/-- The path of an address. -/
def key (client : ReplicaClient) (address : LtxAddress) : ObjectPath :=
  client.ltxKey encodePart address.level address.minTxid address.maxTxid

def perform (client : ReplicaClient) (state : σ) (now : Int) :
    ClientCall → ClientReply × σ
  | .putLtx address bytes =>
      (.done, store.put state (client.key encodePart address) ⟨bytes, now⟩)
  | .putLtxCas address bytes =>
      match store.create state (client.key encodePart address) ⟨bytes, now⟩ with
      | some created => (.outcome .created, created)
      | none =>
          match store.get state (client.key encodePart address) with
          | none => (.failed, state)
          | some existing =>
              if existing = bytes then (.outcome .alreadyIdentical, state)
              else (.outcome .conflict, state)
  | .getLtx address =>
      match store.get state (client.key encodePart address) with
      | none => (.failed, state)
      | some bytes => (.bytes bytes, state)
  | .ltxSize address =>
      match store.head state (client.key encodePart address) with
      | none => (.failed, state)
      | some size => (.size size, state)
  | .deleteLtx address =>
      (.done, store.delete state (client.key encodePart address))
  | .listLtx level =>
      match client.listLtx (ε := Unit) encodePart
        (fun dir => (store.list state dir).map .ok) level with
      | .error _ => (.failed, state)
      | .ok files => (.files files, state)

def act (client : ReplicaClient) (state : σ) (action : ClientAction) :
    ClientReply × σ :=
  action.delivery.of state
    (client.perform store encodePart state action.now action.call)

end ReplicaClient

end Clients

/-! ## What a client has for itself -/

/-- The objects of one replica. -/
abbrev Holdings := ExtTreeMap LtxAddress StoredObject LtxAddress.cmp

def LtxFileInfo.of (entry : LtxAddress × StoredObject) : LtxFileInfo where
  level := entry.1.level
  minTxid := entry.1.minTxid
  maxTxid := entry.1.maxTxid
  size := UInt64.ofNat entry.2.bytes.length
  createdAt := some entry.2.lastModified

namespace Holdings

/-- The files of a level by their ranges. -/
def files (holdings : Holdings) (level : UInt32) : List LtxFileInfo :=
  (holdings.toList.filter fun entry => entry.1.level = level).map
    LtxFileInfo.of

def perform (holdings : Holdings) (now : Int) :
    ClientCall → ClientReply × Holdings
  | .putLtx address bytes => (.done, holdings.insert address ⟨bytes, now⟩)
  | .putLtxCas address bytes =>
      match holdings[address]? with
      | none => (.outcome .created, holdings.insert address ⟨bytes, now⟩)
      | some existing =>
          if existing.bytes = bytes then (.outcome .alreadyIdentical, holdings)
          else (.outcome .conflict, holdings)
  | .getLtx address =>
      match holdings[address]? with
      | none => (.failed, holdings)
      | some object => (.bytes object.bytes, holdings)
  | .ltxSize address =>
      match holdings[address]? with
      | none => (.failed, holdings)
      | some object => (.size (UInt64.ofNat object.bytes.length), holdings)
  | .deleteLtx address => (.done, holdings.erase address)
  | .listLtx level => (.files (holdings.files level), holdings)

def act (holdings : Holdings) (action : ClientAction) :
    ClientReply × Holdings :=
  action.delivery.of holdings (holdings.perform action.now action.call)

end Holdings

/-! ## Paths of a client -/

section Paths

variable {encodePart : Bytes → Bytes}

namespace ReplicaClient

/-- The path of the key prefix. -/
def root (encodePart : Bytes → Bytes) (client : ReplicaClient) : ObjectPath :=
  if client.keyPrefix.isEmpty then []
  else ObjectPath.ofString encodePart client.keyPrefix

/-- The path lies in the directory of some level. -/
def Sees (encodePart : Bytes → Bytes) (client : ReplicaClient)
    (path : ObjectPath) : Prop :=
  ∃ level, path.Inside (client.levelPath encodePart level)

end ReplicaClient

theorem plain_padded (width value : Nat) :
    ∀ byte ∈ Hex.padded width value, Plain byte := by
  have digits : ∀ digit : Fin 16, Plain (Hex.digit digit.val) := by decide
  obtain ⟨count, _, same⟩ := Hex.exists_fixed_padded width value
  rw [same]
  intro byte member
  obtain ⟨small, bound, rfl⟩ := Hex.mem_fixed member
  exact digits ⟨small, bound⟩

theorem le_length_padded (width value : Nat) :
    width ≤ (Hex.padded width value).length := by
  rw [Hex.padded, List.length_append, List.length_replicate]
  omega

/-- The directory of a level is one part below the prefix. -/
theorem ReplicaClient.levelPath_eq (leaves : LeavesPlain encodePart)
    (client : ReplicaClient) (level : UInt32) :
    client.levelPath encodePart level =
      client.root encodePart ++ [Hex.padded 4 level.toNat] := by
  have long := le_length_padded 4 level.toNat
  have plain := plain_padded 4 level.toNat
  have slashless : slash ∉ Hex.padded 4 level.toNat := by
    intro member
    exact absurd (plain slash member) (by decide)
  have kept : encodePart (Hex.padded 4 level.toNat) =
      Hex.padded 4 level.toNat := by
    apply leaves _ plain
    · intro dot
      rw [dot] at long
      exact absurd long (by decide)
    · intro dots
      rw [dots] at long
      exact absurd long (by decide)
  have present : Hex.padded 4 level.toNat ≠ [] := by
    intro empty
    rw [empty] at long
    exact absurd long (by decide)
  have alone : ObjectPath.ofString encodePart (Hex.padded 4 level.toNat) =
      [Hex.padded 4 level.toNat] := by
    rw [ObjectPath.ofString, List.splitOn_eq_singleton slashless,
      List.map_singleton, kept,
      List.filter_cons_of_pos (by simpa using present), List.filter_nil]
  unfold levelPath levelDir root
  split
  · exact alone
  · rw [ObjectPath.ofString_append, alone]

theorem ReplicaClient.key_eq (leaves : LeavesPlain encodePart)
    (client : ReplicaClient) (address : LtxAddress) :
    client.key encodePart address =
      client.levelPath encodePart address.level ++
        [ltxFilename address.minTxid address.maxTxid] :=
  client.ltxKey_eq leaves address.level address.minTxid address.maxTxid

/-- A path below a directory of a level, with nothing in between. -/
theorem ObjectPath.inside_concat {dir front : ObjectPath} {name : Bytes} :
    ObjectPath.Inside (front ++ [name]) dir ↔ dir <+: front := by
  unfold ObjectPath.Inside
  rw [List.prefix_concat_iff]
  constructor
  · rintro ⟨same | isPrefix, different⟩
    · exact absurd same different
    · exact isPrefix
  · intro isPrefix
    refine ⟨.inr isPrefix, ?_⟩
    rintro rfl
    have longer := isPrefix.length_le
    simp at longer

/-- Level directories are apart, unless one lies in the other's prefix. -/
theorem levelPath_isPrefix (leaves : LeavesPlain encodePart)
    {client other : ReplicaClient} {level otherLevel : UInt32} :
    client.levelPath encodePart level <+:
        other.levelPath encodePart otherLevel ↔
      (client.root encodePart = other.root encodePart ∧ level = otherLevel) ∨
      client.levelPath encodePart level <+: other.root encodePart := by
  rw [client.levelPath_eq leaves, other.levelPath_eq leaves,
    List.prefix_concat_iff]
  constructor
  · rintro (same | isPrefix)
    · obtain ⟨roots, names⟩ := List.append_inj' same rfl
      have levels := Hex.padded_injective (List.singleton_inj.mp names)
      exact .inl ⟨roots, UInt32.toNat_inj.mp levels⟩
    · exact .inr isPrefix
  · rintro (⟨roots, rfl⟩ | isPrefix)
    · exact .inl (by rw [roots])
    · exact .inr isPrefix

theorem ReplicaClient.inside_key (leaves : LeavesPlain encodePart)
    {client : ReplicaClient} {address : LtxAddress} {level : UInt32} :
    (client.key encodePart address).Inside
        (client.levelPath encodePart level) ↔ level = address.level := by
  rw [client.key_eq leaves, ObjectPath.inside_concat, levelPath_isPrefix leaves]
  constructor
  · rintro (⟨_, same⟩ | isPrefix)
    · exact same
    · have longer := isPrefix.length_le
      rw [client.levelPath_eq leaves] at longer
      simp at longer
  · intro same
    exact .inl ⟨rfl, same⟩

theorem ReplicaClient.sees_key (leaves : LeavesPlain encodePart)
    (client : ReplicaClient) (address : LtxAddress) :
    client.Sees encodePart (client.key encodePart address) :=
  ⟨address.level, (inside_key leaves).mpr rfl⟩

theorem parse_key (leaves : LeavesPlain encodePart) (client : ReplicaClient)
    (address : LtxAddress) :
    parseLtxFilename (client.key encodePart address).filename =
      some (address.minTxid, address.maxTxid) := by
  rw [client.key_eq leaves, ObjectPath.filename, List.getLast?_concat,
    Option.getD_some]
  exact parse_ltxFilename _ _

theorem ReplicaClient.key_injective (leaves : LeavesPlain encodePart)
    (client : ReplicaClient) {left right : LtxAddress}
    (same : client.key encodePart left = client.key encodePart right) :
    left = right := by
  have names := parse_key leaves client left
  rw [same, parse_key leaves client right] at names
  have levels := (@inside_key _ leaves client right left.level).mp (by
    rw [← same]
    exact (inside_key leaves).mpr rfl)
  obtain ⟨level, minTxid, maxTxid⟩ := left
  obtain ⟨otherLevel, otherMin, otherMax⟩ := right
  simp only [Option.some.injEq, Prod.mk.injEq] at names levels
  rw [levels, names.1, names.2]

end Paths

/-! ## Listing a level -/

section Listing

/-- The order of a listing. -/
def InRange (left right : LtxFileInfo) : Prop :=
  left.minTxid < right.minTxid ∨
    left.minTxid = right.minTxid ∧ left.maxTxid ≤ right.maxTxid

instance : DecidableRel InRange := fun _ _ => inferInstanceAs (Decidable (_ ∨ _))

instance : Std.Total InRange where
  total left right := by
    unfold InRange
    simp only [UInt64.lt_iff_toNat_lt, UInt64.le_iff_toNat_le,
      ← UInt64.toNat_inj]
    omega

instance : IsTrans LtxFileInfo InRange where
  trans left middle right := by
    unfold InRange
    simp only [UInt64.lt_iff_toNat_lt, UInt64.le_iff_toNat_le,
      ← UInt64.toNat_inj]
    omega

/-- What is listed of one object. -/
def infoOf (level : UInt32) (told : ObjectMeta) : Option LtxFileInfo :=
  (parseLtxFilename told.location.filename).map fun range =>
    { level := level
      minTxid := range.1
      maxTxid := range.2
      size := told.size
      createdAt := some told.lastModified }

theorem collect_eq {ε : Type} (level : UInt32) (stream : List ObjectMeta) :
    collect level (stream.map (.ok (ε := ε))) =
      .ok (stream.filterMap (infoOf level)) := by
  induction stream with
  | nil => rfl
  | cons told rest ih =>
      rw [List.map_cons, collect, List.filterMap_cons, ih, infoOf]
      cases parseLtxFilename told.location.filename with
      | none => rfl
      | some range => rfl

/-- A listing is the ordered stream. -/
theorem ReplicaClient.listLtx_eq {ε : Type} {encodePart : Bytes → Bytes}
    (client : ReplicaClient) (list : ObjectPath → List ObjectMeta)
    (level : UInt32) :
    client.listLtx (ε := ε) encodePart (fun dir => (list dir).map .ok) level =
      .ok (((list (client.levelPath encodePart level)).filterMap
        (infoOf level)).insertionSort InRange) := by
  exact bind_eq_ok.mpr ⟨_, collect_eq level _, rfl⟩

theorem LtxFileInfo.of_inj {left right : LtxAddress × StoredObject}
    (same : LtxFileInfo.of left = LtxFileInfo.of right) : left.1 = right.1 := by
  obtain ⟨⟨level, minTxid, maxTxid⟩, object⟩ := left
  obtain ⟨⟨otherLevel, otherMin, otherMax⟩, other⟩ := right
  simp only [LtxFileInfo.of, LtxFileInfo.mk.injEq] at same
  rw [same.1, same.2.1, same.2.2.1]

theorem Holdings.mem_files {holdings : Holdings} {level : UInt32}
    {info : LtxFileInfo} :
    info ∈ holdings.files level ↔ ∃ address object,
      holdings[address]? = some object ∧ address.level = level ∧
        info = LtxFileInfo.of (address, object) := by
  simp only [Holdings.files, List.mem_map, List.mem_filter,
    decide_eq_true_eq, Prod.exists, ExtTreeMap.mem_toList_iff_getElem?_eq_some]
  constructor
  · rintro ⟨address, object, ⟨held, here⟩, rfl⟩
    exact ⟨address, object, held, here, rfl⟩
  · rintro ⟨address, object, held, here, rfl⟩
    exact ⟨address, object, ⟨held, here⟩, rfl⟩

/-- Addresses of one level are in the order of their ranges. -/
theorem inRange_of_lt {left right : LtxAddress × StoredObject}
    (level : left.1.level = right.1.level)
    (less : LtxAddress.cmp left.1 right.1 = .lt) :
    InRange (LtxFileInfo.of left) (LtxFileInfo.of right) := by
  have parts : (compare left.1.level right.1.level).then
      ((compare left.1.minTxid right.1.minTxid).then
        (compare left.1.maxTxid right.1.maxTxid)) = .lt := less
  rw [level, Ordering.then_eq_lt, Ordering.then_eq_lt] at parts
  rcases parts with impossible | ⟨_, first | ⟨same, second⟩⟩
  · exact absurd (compare_eq_lt.mp impossible) (UInt32.lt_irrefl _)
  · exact .inl (compare_eq_lt.mp first)
  · exact .inr ⟨LawfulEqCmp.compare_eq_iff_eq.mp same,
      UInt64.le_of_lt (compare_eq_lt.mp second)⟩

theorem Holdings.files_ordered (holdings : Holdings) (level : UInt32) :
    (holdings.files level).Pairwise fun left right =>
      InRange left right ∧ left ≠ right := by
  rw [Holdings.files, List.pairwise_map, List.pairwise_filter]
  refine ExtTreeMap.ordered_keys_toList.imp ?_
  intro left right less leftLevel rightLevel
  have levels : left.1.level = right.1.level :=
    (of_decide_eq_true leftLevel).trans (of_decide_eq_true rightLevel).symm
  refine ⟨inRange_of_lt levels less, ?_⟩
  intro same
  have equal : LtxAddress.cmp left.1 right.1 = .eq :=
    LawfulEqCmp.compare_eq_iff_eq.mpr (LtxFileInfo.of_inj same)
  rw [equal] at less
  cases less

/-- Two files of one range are one file. -/
theorem Holdings.files_unique {holdings : Holdings} {level : UInt32}
    {left right : LtxFileInfo} (leftMember : left ∈ holdings.files level)
    (rightMember : right ∈ holdings.files level) (before : InRange left right)
    (after : InRange right left) : left = right := by
  obtain ⟨address, object, held, rfl, rfl⟩ := mem_files.mp leftMember
  obtain ⟨other, otherObject, otherHeld, levels, rfl⟩ :=
    mem_files.mp rightMember
  have ranges : address.minTxid = other.minTxid ∧
      address.maxTxid = other.maxTxid := by
    simp only [InRange, LtxFileInfo.of, UInt64.lt_iff_toNat_lt,
      UInt64.le_iff_toNat_le, ← UInt64.toNat_inj] at before after ⊢
    omega
  have same : address = other := by
    cases address
    cases other
    simp_all
  subst same
  rw [held] at otherHeld
  cases otherHeld
  rfl

end Listing

/-! ## A store shows a client its replica -/

section Shows

variable {σ : Type} {store : ObjectStore σ} {encodePart : Bytes → Bytes}
  {client : ReplicaClient} {state : σ} {holdings : Holdings}

/-- The store holds the client's objects where the client looks for them, and
nothing else in its level directories. -/
structure Shows (store : ObjectStore σ) (encodePart : Bytes → Bytes)
    (client : ReplicaClient) (state : σ) (holdings : Holdings) : Prop where
  held : ∀ address,
    store.holds state (client.key encodePart address) = holdings[address]?
  known : ∀ path object, store.holds state path = some object →
    client.Sees encodePart path → ∃ address, path = client.key encodePart address

theorem infoOf_key (leaves : LeavesPlain encodePart) (address : LtxAddress)
    (object : StoredObject) :
    infoOf address.level (ObjectMeta.of (client.key encodePart address) object) =
      some (LtxFileInfo.of (address, object)) := by
  rw [infoOf, ObjectMeta.of, parse_key leaves]
  rfl

theorem Shows.mem_list (lawful : store.Lawful) (leaves : LeavesPlain encodePart)
    (shows_ : Shows store encodePart client state holdings) {level : UInt32}
    {told : ObjectMeta} :
    told ∈ store.list state (client.levelPath encodePart level) ↔
      ∃ address object, holdings[address]? = some object ∧
        address.level = level ∧
        told = ObjectMeta.of (client.key encodePart address) object := by
  rw [lawful.mem_list]
  constructor
  · rintro ⟨inside, object, held, same⟩
    obtain ⟨address, location⟩ := shows_.known _ _ held ⟨level, inside⟩
    rw [location] at held inside same
    rw [shows_.held] at held
    exact ⟨address, object, held,
      ((ReplicaClient.inside_key leaves).mp inside).symm, same⟩
  · rintro ⟨address, object, held, rfl, rfl⟩
    refine ⟨(ReplicaClient.inside_key leaves).mpr rfl, object, ?_, rfl⟩
    rw [← held, ← shows_.held]
    rfl

/-- A listing of the store is a listing of the replica. -/
theorem Shows.files_eq (lawful : store.Lawful) (leaves : LeavesPlain encodePart)
    (shows_ : Shows store encodePart client state holdings) (level : UInt32) :
    ((store.list state (client.levelPath encodePart level)).filterMap
      (infoOf level)).insertionSort InRange = holdings.files level := by
  have members (info : LtxFileInfo) :
      info ∈ (store.list state (client.levelPath encodePart level)).filterMap
          (infoOf level) ↔ info ∈ holdings.files level := by
    rw [List.mem_filterMap, Holdings.mem_files]
    constructor
    · rintro ⟨told, listed, found⟩
      obtain ⟨address, object, held, rfl, rfl⟩ :=
        (shows_.mem_list lawful leaves).mp listed
      rw [infoOf_key leaves] at found
      cases found
      exact ⟨address, object, held, rfl, rfl⟩
    · rintro ⟨address, object, held, rfl, rfl⟩
      exact ⟨_, (shows_.mem_list lawful leaves).mpr
        ⟨address, object, held, rfl, rfl⟩, infoOf_key leaves address object⟩
  have once : ((store.list state (client.levelPath encodePart level)).filterMap
      (infoOf level)).Nodup := by
    apply List.pairwise_filterMap.mpr
    apply (lawful.distinct state _).imp_of_mem
    intro left right leftListed rightListed different info leftFound other
      rightFound
    obtain ⟨address, object, _, rfl, rfl⟩ :=
      (shows_.mem_list lawful leaves).mp leftListed
    obtain ⟨otherAddress, otherObject, _, sameLevel, rfl⟩ :=
      (shows_.mem_list lawful leaves).mp rightListed
    rw [← sameLevel, infoOf_key leaves] at rightFound
    rw [infoOf_key leaves] at leftFound
    cases leftFound
    cases rightFound
    intro same
    have addresses := LtxFileInfo.of_inj same
    dsimp only at addresses
    exact different (by rw [addresses]; rfl)
  have ordered := holdings.files_ordered level
  have same := (List.perm_ext_iff_of_nodup once (ordered.imp And.right)).mpr
    members
  have sorted := (List.perm_insertionSort InRange _).trans same
  apply sorted.eq_of_pairwise _ (List.pairwise_insertionSort InRange _)
    (ordered.imp And.left)
  intro left right leftMember rightMember before after
  exact Holdings.files_unique (sorted.mem_iff.mp leftMember) rightMember before
    after

/-- Writing or deleting one of the client's objects. -/
theorem Shows.write (leaves : LeavesPlain encodePart)
    (shows_ : Shows store encodePart client state holdings) {next : σ}
    {address : LtxAddress} {later : Holdings} {object : Option StoredObject}
    (written : ∀ path, store.holds next path =
      if path = client.key encodePart address then object
      else store.holds state path)
    (mirrored : ∀ other : LtxAddress, later[other]? =
      if other = address then object else holdings[other]?) :
    Shows store encodePart client next later where
  held := by
    intro other
    rw [written, mirrored, shows_.held]
    by_cases same : other = address
    · rw [if_pos same, if_pos (by rw [same])]
    · rw [if_neg same, if_neg fun paths => same (client.key_injective leaves paths)]
  known := by
    intro path found held seen
    rw [written] at held
    split at held
    · rename_i same
      exact ⟨address, same⟩
    · exact shows_.known path found held seen

/-- A call answers, and changes the store, as it does the replica. -/
theorem Shows.perform (lawful : store.Lawful) (leaves : LeavesPlain encodePart)
    (shows_ : Shows store encodePart client state holdings) (now : Int)
    (call : ClientCall) :
    (client.perform store encodePart state now call).1 =
        (holdings.perform now call).1 ∧
      Shows store encodePart client
        (client.perform store encodePart state now call).2
        (holdings.perform now call).2 := by
  have puts (address : LtxAddress) (bytes : Bytes) :
      Shows store encodePart client
        (store.put state (client.key encodePart address) ⟨bytes, now⟩)
        (holdings.insert address ⟨bytes, now⟩) :=
    shows_.write leaves (fun path => lawful.put _ _ _ path)
      (fun other => OrderedMap.getElem?_insert _ _ _ _)
  cases call with
  | putLtx address bytes => exact ⟨rfl, puts address bytes⟩
  | putLtxCas address bytes =>
      simp only [ReplicaClient.perform, Holdings.perform, lawful.create,
        lawful.get, shows_.held]
      cases holdings[address]? with
      | none => exact ⟨rfl, puts address bytes⟩
      | some existing =>
          simp only [reduceCtorEq, if_false, Option.map_some]
          split
          · exact ⟨rfl, shows_⟩
          · exact ⟨rfl, shows_⟩
  | getLtx address =>
      simp only [ReplicaClient.perform, Holdings.perform, lawful.get,
        shows_.held]
      cases holdings[address]? with
      | none => exact ⟨rfl, shows_⟩
      | some object => exact ⟨rfl, shows_⟩
  | ltxSize address =>
      simp only [ReplicaClient.perform, Holdings.perform, lawful.head,
        shows_.held]
      cases holdings[address]? with
      | none => exact ⟨rfl, shows_⟩
      | some object => exact ⟨rfl, shows_⟩
  | deleteLtx address =>
      refine ⟨rfl, ?_⟩
      exact shows_.write leaves (fun path => lawful.delete _ _ path)
        (fun other => OrderedMap.getElem?_erase _ _ _)
  | listLtx level =>
      simp only [ReplicaClient.perform, Holdings.perform,
        client.listLtx_eq (store.list state), shows_.files_eq lawful leaves]
      exact ⟨trivial, shows_⟩

end Shows

/-! ## Clients of one store -/

section Tenants

variable {σ ι : Type} {store : ObjectStore σ} {encodePart : Bytes → Bytes}

/-- A call changes the store under the client's own addresses only. -/
theorem ReplicaClient.perform_elsewhere (lawful : store.Lawful)
    {client : ReplicaClient} {path : ObjectPath}
    (elsewhere : ∀ address, path ≠ client.key encodePart address) (state : σ)
    (now : Int) (call : ClientCall) :
    store.holds (client.perform store encodePart state now call).2 path =
      store.holds state path := by
  cases call with
  | putLtx address bytes =>
      exact (lawful.put _ _ _ _).trans (if_neg (elsewhere address))
  | putLtxCas address bytes =>
      simp only [perform, lawful.create]
      split
      · rename_i created given
        split at given
        · cases given
          exact (lawful.put _ _ _ _).trans (if_neg (elsewhere address))
        · cases given
      · split
        · rfl
        · split
          · rfl
          · rfl
  | getLtx address =>
      simp only [perform]
      split
      · rfl
      · rfl
  | ltxSize address =>
      simp only [perform]
      split
      · rfl
      · rfl
  | deleteLtx address =>
      exact (lawful.delete _ _ _).trans (if_neg (elsewhere address))
  | listLtx level =>
      simp only [perform]
      split
      · rfl
      · rfl

/-- The clients in turn on one store. -/
def sharing (store : ObjectStore σ) (encodePart : Bytes → Bytes)
    (clients : ι → ReplicaClient) (tenant : ι) (state : σ)
    (action : ClientAction) : ClientReply × σ :=
  (clients tenant).act store encodePart state action

/-- The other's prefix is another one, and lies in no level directory of the
client. -/
def ReplicaClient.Apart (encodePart : Bytes → Bytes)
    (client other : ReplicaClient) : Prop :=
  client.root encodePart ≠ other.root encodePart ∧
    ∀ level, ¬ client.levelPath encodePart level <+: other.root encodePart

theorem ReplicaClient.Apart.unseen (leaves : LeavesPlain encodePart)
    {client other : ReplicaClient} (apart : client.Apart encodePart other)
    (address : LtxAddress) :
    ¬ client.Sees encodePart (other.key encodePart address) := by
  rintro ⟨level, inside⟩
  rw [other.key_eq leaves, ObjectPath.inside_concat,
    levelPath_isPrefix leaves] at inside
  rcases inside with ⟨roots, _⟩ | isPrefix
  · exact apart.1 roots
  · exact apart.2 level isPrefix

theorem sharing_simulates (lawful : store.Lawful)
    (leaves : LeavesPlain encodePart) {clients : ι → ReplicaClient} {tenant : ι}
    (apart : ∀ other, other ≠ tenant →
      (clients tenant).Apart encodePart (clients other)) :
    Sharing.Simulates (sharing store encodePart clients) Holdings.act tenant
      (Shows store encodePart (clients tenant)) where
  own := by
    intro state holdings action shows_
    obtain ⟨reply, next⟩ :=
      shows_.perform lawful leaves action.now action.call
    unfold sharing ReplicaClient.act Holdings.act
    cases action.delivery with
    | arrives => exact ⟨reply, next⟩
    | fails => exact ⟨rfl, shows_⟩
    | losesReply => exact ⟨rfl, next⟩
  others := by
    intro state holdings other action different shows_
    have unseen := (apart other different).unseen leaves
    have kept (path : ObjectPath)
        (seen : (clients tenant).Sees encodePart path) :
        store.holds (sharing store encodePart clients other state action).2
          path = store.holds state path := by
      have elsewhere : ∀ address,
          path ≠ (clients other).key encodePart address := by
        rintro address rfl
        exact unseen address seen
      unfold sharing ReplicaClient.act
      cases action.delivery with
      | arrives =>
          exact ReplicaClient.perform_elsewhere lawful elsewhere _ _ _
      | fails => rfl
      | losesReply =>
          exact ReplicaClient.perform_elsewhere lawful elsewhere _ _ _
    constructor
    · intro address
      rw [kept _ ((clients tenant).sees_key leaves address)]
      exact shows_.held address
    · intro path object held seen
      rw [kept path seen] at held
      exact shows_.known path object held seen

theorem shows_empty {client : ReplicaClient} {start : σ}
    (empty : ∀ path, store.holds start path = none) :
    Shows store encodePart client start ∅ where
  held := by
    intro address
    rw [empty, ExtTreeMap.getElem?_empty]
  known := by
    intro path object held
    rw [empty] at held
    cases held

/-- A client lists an object of another one whose level directory lies in its
own. -/
theorem lists_foreign (lawful : store.Lawful) (leaves : LeavesPlain encodePart)
    {client other : ReplicaClient} {level : UInt32} {address : LtxAddress}
    (isPrefix : client.levelPath encodePart level <+:
      other.levelPath encodePart address.level)
    (state : σ) (object : StoredObject) :
    ((store.list (store.put state (other.key encodePart address) object)
      (client.levelPath encodePart level)).filterMap
        (infoOf level)).insertionSort InRange ≠ [] := by
  have told : ObjectMeta.of (other.key encodePart address) object ∈
      store.list (store.put state (other.key encodePart address) object)
        (client.levelPath encodePart level) := by
    rw [lawful.mem_list]
    refine ⟨?_, object, ?_, rfl⟩
    · rw [other.key_eq leaves]
      exact ObjectPath.inside_concat.mpr isPrefix
    · exact (lawful.put _ _ _ _).trans (if_pos rfl)
  have found : (infoOf level
      (ObjectMeta.of (other.key encodePart address) object)).isSome = true := by
    rw [infoOf, ObjectMeta.of, parse_key leaves]
    rfl
  obtain ⟨info, same⟩ := Option.isSome_iff_exists.mp found
  have member := (List.perm_insertionSort InRange _).mem_iff.mpr
    (List.mem_filterMap.mpr ⟨_, told, same⟩)
  exact List.ne_nil_of_mem member

/-- A client gets the replies of a replica that it has for itself, whatever the
other clients of the store do, exactly when all of them keep apart from it. -/
theorem tenants_apart_iff [DecidableEq ι] (lawful : store.Lawful)
    (leaves : LeavesPlain encodePart) {start : σ}
    (empty : ∀ path, store.holds start path = none)
    (clients : ι → ReplicaClient) (tenant : ι) :
    (∀ script, Sharing.concerning tenant
        (Sharing.replies (sharing store encodePart clients) start script) =
      Sharing.answers Holdings.act ∅ (Sharing.concerning tenant script)) ↔
    ∀ other, other ≠ tenant →
      (clients tenant).Apart encodePart (clients other) := by
  constructor
  · intro alone other different
    by_contra near
    -- An object of the other client that a listing of the tenant tells of.
    obtain ⟨level, otherLevel, isPrefix⟩ : ∃ level otherLevel,
        (clients tenant).levelPath encodePart level <+:
          (clients other).levelPath encodePart otherLevel := by
      simp only [levelPath_isPrefix leaves]
      unfold ReplicaClient.Apart at near
      rw [not_and_or] at near
      rcases near with roots | below
      · exact ⟨0, 0, .inl ⟨not_not.mp roots, rfl⟩⟩
      · obtain ⟨level, isPrefix⟩ := not_forall.mp below
        exact ⟨level, 0, .inr (not_not.mp isPrefix)⟩
    have said := alone
      [(other, ⟨.putLtx ⟨otherLevel, 1, 1⟩ [], 0, .arrives⟩),
        (tenant, ⟨.listLtx level, 0, .arrives⟩)]
    rw [Sharing.concerning_other different, Sharing.replies,
      Sharing.concerning_other different, Sharing.replies,
      Sharing.concerning_self, Sharing.concerning_self, Sharing.answers]
      at said
    have reply := (List.cons.inj said).1
    simp only [sharing, ReplicaClient.act, Delivery.of, ReplicaClient.perform,
      ReplicaClient.listLtx_eq (clients tenant) (store.list _), Holdings.act,
      Holdings.perform, ClientReply.files.injEq] at reply
    have none_ : (∅ : Holdings).files level = [] := by
      simp [Holdings.files]
    rw [none_] at reply
    have foreign := @lists_foreign σ store encodePart lawful leaves
      (clients tenant) (clients other) level ⟨otherLevel, 1, 1⟩ isPrefix start
      ⟨[], 0⟩
    exact foreign reply
  · intro apart script
    exact (sharing_simulates lawful leaves apart).replies_eq (shows_empty empty)
      script

end Tenants

/-! ## A bucket -/

abbrev Bucket := ExtTreeMap ObjectPath StoredObject compare

/-- A store of paths in order. -/
def bucketStore : ObjectStore Bucket where
  holds bucket path := bucket[path]?
  put bucket path object := bucket.insert path object
  create bucket path object :=
    if bucket[path]? = none then some (bucket.insert path object) else none
  get bucket path := bucket[path]?.map StoredObject.bytes
  head bucket path := bucket[path]?.map fun object =>
    (ObjectMeta.of path object).size
  delete bucket path := bucket.erase path
  list bucket dir :=
    (bucket.toList.filter fun entry => entry.1.Inside dir).map fun entry =>
      ObjectMeta.of entry.1 entry.2

theorem bucketStore_lawful : bucketStore.Lawful where
  put bucket path object other := OrderedMap.getElem?_insert _ _ _ _
  create _ _ _ := rfl
  get _ _ := rfl
  head _ _ := rfl
  delete bucket path other := OrderedMap.getElem?_erase _ _ _
  mem_list := by
    intro bucket dir told
    simp only [bucketStore, List.mem_map, List.mem_filter, decide_eq_true_eq,
      Prod.exists, ExtTreeMap.mem_toList_iff_getElem?_eq_some]
    constructor
    · rintro ⟨path, object, ⟨held, inside⟩, rfl⟩
      exact ⟨inside, object, held, rfl⟩
    · rintro ⟨inside, object, held, same⟩
      exact ⟨_, object, ⟨held, inside⟩, same.symm⟩
  distinct := by
    intro bucket dir
    rw [bucketStore, List.pairwise_map, List.pairwise_filter]
    refine ExtTreeMap.ordered_keys_toList.imp ?_
    intro left right less _ _ same
    have equal : compare left.1 right.1 = .eq :=
      LawfulEqCmp.compare_eq_iff_eq.mpr same
    rw [equal] at less
    cases less

/-- Clients with the prefixes `"a"` and `"b"`. -/
def siblingClients (second : Bool) : ReplicaClient :=
  if second then ⟨[0x62]⟩ else ⟨[0x61]⟩

theorem siblings_apart : ∀ other, other ≠ false →
    (siblingClients false).Apart id (siblingClients other) := by
  rintro (_ | _) different
  · exact absurd rfl different
  · refine ⟨by decide, ?_⟩
    intro level isPrefix
    have longer := isPrefix.length_le
    rw [@ReplicaClient.levelPath_eq id fun _ _ _ _ => rfl,
      List.length_append, List.length_singleton] at longer
    have roots : ((siblingClients false).root id).length = 1 ∧
        ((siblingClients true).root id).length = 1 := by decide
    omega

/-- One sibling does not see what the other one writes. -/
theorem tenants_apart_iff_siblings :
    Sharing.concerning false
      (Sharing.replies (sharing bucketStore id siblingClients) ∅
        [(true, ⟨.putLtx ⟨0, 1, 1⟩ [7], 0, .arrives⟩),
          (false, ⟨.putLtx ⟨0, 1, 1⟩ [8], 0, .arrives⟩),
          (false, ⟨.getLtx ⟨0, 1, 1⟩, 0, .arrives⟩)]) =
      [.done, .bytes [8]] :=
  (tenants_apart_iff bucketStore_lawful (fun _ _ _ _ => rfl)
    (fun _ => ExtTreeMap.getElem?_empty) siblingClients false).mpr
    siblings_apart _

/-- A client of the whole bucket lists the objects of a client whose prefix is
the name of a level. -/
theorem nested_client_listed :
    (Sharing.replies
      (sharing bucketStore id fun nested : Bool =>
        if nested then ⟨[0x30, 0x30, 0x30, 0x30]⟩ else rootClient) ∅
      [(true, ⟨.putLtx ⟨9, 1, 5⟩ [7], 0, .arrives⟩),
        (false, ⟨.listLtx 0, 0, .arrives⟩)]) =
      [(true, .done), (false, .files [⟨0, 1, 5, 1, some 0⟩])] := by
  decide +kernel

end Storage

end Literstream
