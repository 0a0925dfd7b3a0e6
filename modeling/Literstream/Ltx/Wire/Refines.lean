import Literstream.Ltx.Total
import Literstream.Ltx.Wire.Written

/-!
# The bytes hold an LTX file

What the byte encoder accepts, the encoder of plain numbers accepts.
-/

namespace Literstream

namespace Wire

/-- The header with plain numbers. -/
def Header.plain (header : Header) : Literstream.Header where
  flags := header.flags.toNat
  pageSize := header.pageSize.toNat
  commit := header.commit.toNat
  minTxid := header.minTxid.toNat
  maxTxid := header.maxTxid.toNat
  timestamp := header.timestamp.toInt
  preApplyChecksum := header.preApplyChecksum.toNat
  walOffset := header.walOffset.toInt.toNat
  walSize := header.walSize.toInt.toNat
  walSalt1 := header.walSalt1.toNat
  walSalt2 := header.walSalt2.toNat
  nodeId := header.nodeId.toNat

def plainPage (page : WirePage) : Page := (page.1.toNat, page.2)

theorem Header.isSnapshot_plain (header : Header) :
    header.plain.isSnapshot = header.isSnapshot := by
  rw [Bool.eq_iff_iff]
  unfold Literstream.Header.isSnapshot Header.isSnapshot
  rw [beq_iff_eq, beq_iff_eq]
  exact @UInt64.toNat_inj header.minTxid 1

theorem Header.validate_plain {header : Header}
    (valid : header.validate = .ok ()) : header.plain.validate = .ok () := by
  unfold Header.validate at valid
  unfold Literstream.Header.validate
  split at valid
  · cases valid
  · rename_i sized
    have plainSized : ¬isValidPageSize header.plain.pageSize = false := sized
    rw [if_neg plainSized]
    split at valid
    · cases valid
    · rename_i range
      have plainRange :
          ¬(header.plain.minTxid = 0 ∨ header.plain.maxTxid = 0 ∨
            header.plain.minTxid > header.plain.maxTxid) := by
        rintro (zero | zero | reversed)
        · exact range (.inl (UInt64.toNat_inj.mp zero))
        · exact range (.inr (.inl (UInt64.toNat_inj.mp zero)))
        · exact range (.inr (.inr (UInt64.lt_iff_toNat_lt.mpr reversed)))
      rw [if_neg plainRange]
      split at valid
      · cases valid
      · rename_i unchained
        have plainUnchained :
            ¬(header.plain.isSnapshot = true ∧
              header.plain.preApplyChecksum ≠ 0) := by
          rintro ⟨snapshot, chained⟩
          rw [Header.isSnapshot_plain] at snapshot
          refine unchained ⟨snapshot, ?_⟩
          intro zero
          exact chained (congrArg UInt64.toNat zero)
        rw [if_neg plainUnchained]

/-- The two encoders under one header with the same last page. -/
structure Encoder.Agrees (wire : Encoder) (header : Header)
    (plain : Literstream.Encoder) : Prop where
  headerIs : wire.header = some header
  plainHeader : plain.header = header.plain
  prevPgno : plain.prevPgno = wire.prevPgno.toNat

namespace Encoder

theorem Agrees.inOrder {wire : Encoder} {header : Header}
    {plain : Literstream.Encoder} {pgno : UInt32}
    (agrees : wire.Agrees header plain)
    (positive : pgno ≠ 0)
    (ordered : wire.inOrder header pgno = true) :
    plain.inOrder pgno.toNat = true := by
  unfold Literstream.Encoder.inOrder
  dsimp only
  rw [agrees.plainHeader, agrees.prevPgno, Header.isSnapshot_plain]
  have lock : header.lockPgno.toNat =
      Literstream.lockPgno header.plain.pageSize := toNat_lockPgno header
  rw [← lock]
  rcases inOrder_toNat positive ordered with
    ⟨snapshot, first | before | next⟩ | ⟨later, ascending⟩
  · rw [if_pos snapshot, if_pos first.1, beq_iff_eq]
    exact first.2
  · rw [if_pos snapshot, if_neg before.1, if_pos before.2.1, beq_iff_eq]
    exact before.2.2
  · rw [if_pos snapshot, if_neg next.1, if_neg next.2.1, beq_iff_eq]
    exact next.2.2
  · rw [if_neg (by simp [later])]
    exact decide_eq_true ascending

theorem Agrees.encodePage {lz4 : Lz4} {wire wireNext : Encoder}
    {header : Header} {plain : Literstream.Encoder} {pgno : UInt32}
    {data : Bytes}
    (agrees : wire.Agrees header plain)
    (encoded : wire.encodePage lz4 pgno data = .ok wireNext) :
    ∃ next, plain.encodePage pgno.toNat data = .ok next ∧
      wireNext.Agrees header next := by
  obtain ⟨frame, checked, -, -, rfl⟩ :=
    encodePage_eq_ok agrees.headerIs encoded
  obtain ⟨length, positive, inside, notLock, ordered⟩ :=
    checkPage_eq_ok checked
  have pageOk : PageOk plain.header (pgno.toNat, data) := by
    rw [agrees.plainHeader]
    refine ⟨Nat.pos_of_ne_zero ?_, UInt32.le_iff_toNat_le.mp inside, ?_,
      length⟩
    · intro zero
      exact positive (UInt32.toNat_inj.mp zero)
    · intro lock
      have same := lock.trans (toNat_lockPgno header).symm
      exact notLock (UInt32.toNat_inj.mp same)
  obtain ⟨next, paged, nextHeader, nextPrev⟩ :=
    Literstream.Encoder.encodePage_total pageOk
      (agrees.inOrder positive ordered)
  exact ⟨next, paged,
    { headerIs := agrees.headerIs
      plainHeader := nextHeader.trans agrees.plainHeader
      prevPgno := nextPrev }⟩

theorem Agrees.calls {lz4 : Lz4} {calls : List Call} {wire wireNext : Encoder}
    {header : Header} {plain : Literstream.Encoder}
    (agrees : wire.Agrees header plain)
    (called : wire.calls lz4 calls = .ok wireNext) :
    ∃ next, plain.encodePages ((pagesOf calls).map plainPage) = .ok next := by
  induction calls generalizing wire plain with
  | nil => exact ⟨plain, rfl⟩
  | cons call rest ih =>
      rw [Encoder.calls, bind_eq_ok] at called
      obtain ⟨middle, first, later⟩ := called
      cases call with
      | encodePage pgno data =>
          obtain ⟨plainMiddle, paged, middleAgrees⟩ := agrees.encodePage first
          obtain ⟨next, done⟩ := ih middleAgrees later
          refine ⟨next, ?_⟩
          change (plain.encodePage pgno.toNat data >>= _) = _
          rw [paged]
          exact done
      | setPostApplyChecksum checksum =>
          cases first
          have still :
              (wire.setPostApplyChecksum checksum).Agrees header plain :=
            ⟨agrees.headerIs, agrees.plainHeader, agrees.prevPgno⟩
          exact ih still later

end Encoder

/-- The bytes are those of a file that the plain encoder builds. -/
theorem encodeFile_refines {lz4 : Lz4} {header : Header} {calls : List Call}
    {bytes : Bytes} {trailer : Trailer}
    (encoded : encodeFile lz4 header calls = .ok (bytes, trailer)) :
    ∃ file, Literstream.encodeFile header.plain
        ((pagesOf calls).map plainPage) = .ok file := by
  rw [encodeFile, bind_eq_ok] at encoded
  obtain ⟨opened, headed, encoded⟩ := encoded
  rw [bind_eq_ok] at encoded
  obtain ⟨paged, called, -⟩ := encoded
  obtain ⟨valid, rfl⟩ := Encoder.encodeHeader_eq_ok headed
  obtain ⟨plain, plainOpened, plainHeader, prevPgno⟩ :=
    Literstream.Encoder.encodeHeader_total (Header.validate_plain valid)
  have agrees :
      ({ Encoder.new.hashed header.encode with
          header := some header
          state := .page } : Encoder).Agrees header plain :=
    ⟨rfl, plainHeader, prevPgno⟩
  obtain ⟨next, done⟩ := agrees.calls called
  refine ⟨next.finish, ?_⟩
  rw [Literstream.encodeFile, plainOpened]
  change (plain.encodePages _ >>= _) = _
  rw [done]
  rfl

end Wire

end Literstream
