import Mathlib.Logic.Function.Basic
import Mathlib.Tactic.NormNum
import Literstream.Storage
import Literstream.Lib.Chunks
import Literstream.Lib.Machine

/-!
# Many writers at one key

Hosts that share a replica prefix upload to the same key in single store
operations, in any order.  Small files go through a conditional create and a
read-back, large ones are sent in parts and replace what is there.
-/

namespace Literstream

open Chunks Machine

/-- The part size of a multipart upload. -/
def multipartChunk : Nat := 8 * 1024 * 1024

theorem multipartChunk_pos : 0 < multipartChunk := by
  norm_num [multipartChunk]

/-- Where a call of `upload_ltx_file` is. -/
inductive WriterPc where
  | ready
  | creating
  | readingBack
  | sending (sent : Bytes)
  | completing (sent : Bytes)
  | removing
  | finished (ok : Bool)
deriving DecidableEq, Repr

/-- A store operation is done, or fails without effect, or takes effect and is
reported as failed, or is repeated by the client after taking effect. -/
inductive Reply where
  | done
  | failed
  | lost
  | repeated
deriving DecidableEq, Repr

/-- The object at the key, if any, and the running calls. -/
structure Rivals (ι : Type*) where
  object : Option Bytes
  pc : ι → WriterPc

section Uploading

variable {ι : Type*} [DecidableEq ι]

namespace Rivals

def start : Rivals ι where
  object := none
  pc := fun _ => .ready

def goto (state : Rivals ι) (writer : ι) (pc : WriterPc) : Rivals ι :=
  { state with pc := Function.update state.pc writer pc }

/-- One step of one writer; `reply` is what its store operation, or else its
file system, answers. -/
def step (bytes : ι → Bytes) (state : Rivals ι) :
    ι × Reply → Option (Rivals ι)
  | (writer, reply) =>
      match state.pc writer, reply with
      | .ready, .done =>
          if multipartThreshold ≤ (bytes writer).length then
            some (state.goto writer (.sending []))
          else some (state.goto writer .creating)
      | .creating, .done =>
          match state.object with
          | none =>
              some
                { state.goto writer .removing with
                  object := some (bytes writer) }
          | some _ => some (state.goto writer .readingBack)
      | .creating, .lost =>
          some
            { state.goto writer (.finished false) with
              object := some (state.object.getD (bytes writer)) }
      | .creating, .repeated =>
          some
            { state.goto writer .readingBack with
              object := some (state.object.getD (bytes writer)) }
      | .readingBack, .done =>
          if state.object = some (bytes writer) then
            some (state.goto writer .removing)
          else some (state.goto writer (.finished false))
      | .sending sent, .done =>
          let part := ((bytes writer).drop sent.length).take multipartChunk
          if part.length < multipartChunk then
            some (state.goto writer (.completing (sent ++ part)))
          else some (state.goto writer (.sending (sent ++ part)))
      | .completing sent, .done =>
          some { state.goto writer .removing with object := some sent }
      | .completing sent, .lost =>
          some
            { state.goto writer (.finished false) with object := some sent }
      | .removing, .done => some (state.goto writer (.finished true))
      | .finished _, _ => none
      | _, _ => some (state.goto writer (.finished false))

/-- Writers that finish with success agree on the bytes, and what they see stays
in the store. -/
def Agrees (bytes : ι → Bytes) (state : Rivals ι) : Prop :=
  (∀ left right, state.pc left = .finished true →
    state.pc right = .finished true → bytes left = bytes right) ∧
  ∀ writer, state.pc writer = .finished true →
    ∀ final, Reaches (step bytes) (fun _ _ => True) state final →
      final.object = state.object

/-- Who uploads a file of the multipart size has no rival with other bytes. -/
def Unrivaled (bytes : ι → Bytes) : Prop :=
  ∀ large other, multipartThreshold ≤ (bytes large).length →
    bytes other = bytes large

end Rivals

/-- What holds of uploads without large rivals. -/
structure RivalsOk (bytes : ι → Bytes) (state : Rivals ι) : Prop where
  settled : ∀ writer, state.pc writer = .removing ∨
    state.pc writer = .finished true → state.object = some (bytes writer)
  sending : ∀ writer sent, state.pc writer = .sending sent →
    multipartThreshold ≤ (bytes writer).length ∧ sent <+: bytes writer
  completing : ∀ writer sent, state.pc writer = .completing sent →
    multipartThreshold ≤ (bytes writer).length ∧ sent = bytes writer

variable {bytes : ι → Bytes} {state next final : Rivals ι} {writer : ι}

theorem prefix_part {whole sent : Bytes} (isPrefix : sent <+: whole)
    (count : Nat) : sent ++ (whole.drop sent.length).take count <+: whole := by
  obtain ⟨rest, rfl⟩ := isPrefix
  rw [List.drop_left, List.prefix_append_right_inj]
  exact List.take_prefix _ _

theorem whole_of_short_part {whole sent : Bytes} {count : Nat}
    (isPrefix : sent <+: whole)
    (short : ((whole.drop sent.length).take count).length < count) :
    sent ++ (whole.drop sent.length).take count = whole := by
  obtain ⟨rest, rfl⟩ := isPrefix
  rw [List.drop_left] at short ⊢
  rw [List.length_take] at short
  rw [List.take_of_length_le (by omega)]

namespace Rivals

theorem goto_pc (state : Rivals ι) (writer other : ι) (pc : WriterPc) :
    (state.goto writer pc).pc other =
      if other = writer then pc else state.pc other := by
  unfold goto
  exact Function.update_apply _ _ _ _

/-- Moving one writer on, with the object it leaves. -/
theorem ok_of_goto {pc : WriterPc} {object : Option Bytes}
    (ok : RivalsOk bytes state)
    (kept : ∀ other, state.object = some (bytes other) →
      object = some (bytes other))
    (settled : pc = .removing ∨ pc = .finished true →
      object = some (bytes writer))
    (sending : ∀ sent, pc = .sending sent →
      multipartThreshold ≤ (bytes writer).length ∧ sent <+: bytes writer)
    (completing : ∀ sent, pc = .completing sent →
      multipartThreshold ≤ (bytes writer).length ∧ sent = bytes writer) :
    RivalsOk bytes { state.goto writer pc with object := object } := by
  constructor
  · intro other
    simp only [goto_pc]
    split
    · rename_i same
      subst same
      exact settled
    · exact fun still => kept other (ok.settled other still)
  · intro other sent
    simp only [goto_pc]
    split
    · rename_i same
      subst same
      exact sending sent
    · exact ok.sending other sent
  · intro other sent
    simp only [goto_pc]
    split
    · rename_i same
      subst same
      exact completing sent
    · exact ok.completing other sent

/-- A step without large rivals; an object that a finished writer saw stays. -/
theorem ok_step {reply : Reply} (unrivaled : Unrivaled bytes)
    (ok : RivalsOk bytes state)
    (stepped : state.step bytes (writer, reply) = some next) :
    RivalsOk bytes next ∧
      ∀ other, state.object = some (bytes other) →
        next.object = state.object := by
  -- steps that leave the object alone and do not end a multipart upload
  have moves : ∀ pc, (pc = .removing ∨ pc = .finished true →
        state.object = some (bytes writer)) →
      (∀ sent, pc = .sending sent →
        multipartThreshold ≤ (bytes writer).length ∧ sent <+: bytes writer) →
      (∀ sent, pc = .completing sent →
        multipartThreshold ≤ (bytes writer).length ∧ sent = bytes writer) →
      state.goto writer pc = next →
      RivalsOk bytes next ∧
        ∀ other, state.object = some (bytes other) →
          next.object = state.object := by
    rintro pc settled sending completing rfl
    exact ⟨ok_of_goto ok (fun _ same => same) settled sending completing,
      fun _ _ => rfl⟩
  have fails : state.goto writer (.finished false) = next →
      RivalsOk bytes next ∧
        ∀ other, state.object = some (bytes other) →
          next.object = state.object :=
    moves _ (by simp) (by simp) (by simp)
  -- a conditional create: it puts the writer's bytes where nothing is
  have creates : ∀ pc, pc ≠ .finished true →
      (pc = .removing → state.object = none) →
      (∀ sent, pc ≠ .sending sent) → (∀ sent, pc ≠ .completing sent) →
      { state.goto writer pc with
        object := some (state.object.getD (bytes writer)) } = next →
      RivalsOk bytes next ∧
        ∀ other, state.object = some (bytes other) →
          next.object = state.object := by
    rintro pc notFinished removing notSending notCompleting rfl
    refine ⟨ok_of_goto ok ?_ ?_ ?_ ?_, ?_⟩
    · intro other same
      rw [same, Option.getD_some]
    · rintro (same | finished)
      · rw [removing same, Option.getD_none]
      · exact absurd finished notFinished
    · exact fun sent same => absurd same (notSending sent)
    · exact fun sent same => absurd same (notCompleting sent)
    · intro other same
      rw [same]
      rfl
  -- the end of a multipart upload replaces the object by the same bytes
  have replaces : ∀ pc sent, multipartThreshold ≤ (bytes writer).length →
      sent = bytes writer →
      (∀ sent, pc ≠ .sending sent) → (∀ sent, pc ≠ .completing sent) →
      { state.goto writer pc with object := some sent } = next →
      RivalsOk bytes next ∧
        ∀ other, state.object = some (bytes other) →
          next.object = state.object := by
    rintro pc sent large rfl notSending notCompleting rfl
    refine ⟨ok_of_goto ok ?_ (fun _ => rfl) ?_ ?_, ?_⟩
    · intro other _
      rw [unrivaled writer other large]
    · exact fun sent same => absurd same (notSending sent)
    · exact fun sent same => absurd same (notCompleting sent)
    · intro other same
      rw [same, unrivaled writer other large]
  simp only [step] at stepped
  split at stepped
  · split at stepped
    · rename_i large
      apply moves _ (by simp) _ (by simp) (Option.some.inj stepped)
      rintro sent ⟨⟩
      exact ⟨large, List.nil_prefix⟩
    · exact moves _ (by simp) (by simp) (by simp) (Option.some.inj stepped)
  · split at stepped
    · rename_i absent
      refine creates .removing (by simp) (fun _ => absent) (by simp) (by simp) ?_
      rw [absent]
      exact Option.some.inj stepped
    · exact moves _ (by simp) (by simp) (by simp) (Option.some.inj stepped)
  · exact creates _ (by simp) (by simp) (by simp) (by simp)
      (Option.some.inj stepped)
  · exact creates _ (by simp) (by simp) (by simp) (by simp)
      (Option.some.inj stepped)
  · split at stepped
    · rename_i same
      exact moves _ (fun _ => same) (by simp) (by simp)
        (Option.some.inj stepped)
    · exact fails (Option.some.inj stepped)
  · rename_i sent running
    obtain ⟨large, isPrefix⟩ := ok.sending writer sent running
    split at stepped
    · rename_i short
      apply moves _ (by simp) (by simp) _ (Option.some.inj stepped)
      rintro _ ⟨⟩
      exact ⟨large, whole_of_short_part isPrefix short⟩
    · apply moves _ (by simp) _ (by simp) (Option.some.inj stepped)
      rintro _ ⟨⟩
      exact ⟨large, prefix_part isPrefix _⟩
  · rename_i sent running
    obtain ⟨large, whole⟩ := ok.completing writer sent running
    exact replaces _ sent large whole (by simp) (by simp)
      (Option.some.inj stepped)
  · rename_i sent running
    obtain ⟨large, whole⟩ := ok.completing writer sent running
    exact replaces _ sent large whole (by simp) (by simp)
      (Option.some.inj stepped)
  · rename_i running
    exact moves _ (fun _ => ok.settled writer (.inl running)) (by simp)
      (by simp) (Option.some.inj stepped)
  · cases stepped
  · exact fails (Option.some.inj stepped)

omit [DecidableEq ι] in
theorem ok_start : RivalsOk bytes start where
  settled := by simp [start]
  sending := by simp [start]
  completing := by simp [start]

theorem ok_reaches (unrivaled : Unrivaled bytes)
    (run : Reaches (step bytes) (fun _ _ => True) start state) :
    RivalsOk bytes state :=
  run.invariant ok_start fun _ _ _ ok _ stepped =>
    (ok_step unrivaled ok stepped).1

theorem object_reaches (unrivaled : Unrivaled bytes)
    (ok : RivalsOk bytes state) {other : ι}
    (seen : state.object = some (bytes other))
    (run : Reaches (step bytes) (fun _ _ => True) state final) :
    final.object = state.object := by
  have both : RivalsOk bytes final ∧ final.object = some (bytes other) := by
    induction run with
    | refl => exact ⟨ok, seen⟩
    | tail _ _ stepped ih =>
        obtain ⟨before, same⟩ := ih
        obtain ⟨after, stays⟩ := ok_step unrivaled before stepped
        exact ⟨after, (stays other same).trans same⟩
  rw [both.2, seen]

theorem agrees_of_unrivaled (unrivaled : Unrivaled bytes)
    (run : Reaches (step bytes) (fun _ _ => True) start state) :
    Agrees bytes state := by
  have ok := ok_reaches unrivaled run
  constructor
  · intro left right leftDone rightDone
    have first := ok.settled left (.inr leftDone)
    have second := ok.settled right (.inr rightDone)
    exact Option.some.inj (first.symm.trans second)
  · intro writer done final later
    exact object_reaches unrivaled ok (ok.settled writer (.inr done)) later

/-! ## A large rival -/

/-- A run in which only one writer moves. -/
def Alone (bytes : ι → Bytes) (writer : ι) (state final : Rivals ι) : Prop :=
  Reaches (step bytes) (fun _ _ => True) state final ∧
    ∀ other, other ≠ writer → final.pc other = state.pc other

theorem Alone.cons {pc : WriterPc} {object : Option Bytes}
    (stepped : state.step bytes (writer, .done) =
      some { state.goto writer pc with object := object })
    (alone : Alone bytes writer
      { state.goto writer pc with object := object } final) :
    Alone bytes writer state final := by
  obtain ⟨run, others⟩ := alone
  refine ⟨(Reaches.tail .refl trivial stepped).trans run, ?_⟩
  intro other apart
  rw [others other apart]
  simp only [goto_pc, if_neg apart]

theorem Alone.refl (state : Rivals ι) : Alone bytes writer state state :=
  ⟨.refl, fun _ _ => rfl⟩

theorem goto_self (state : Rivals ι) (writer : ι) (pc : WriterPc) :
    (state.goto writer pc).pc writer = pc := by
  rw [goto_pc, if_pos rfl]

theorem step_sending {sent rest : Bytes}
    (running : state.pc writer = .sending sent)
    (whole : sent ++ rest = bytes writer) :
    state.step bytes (writer, .done) =
      some { state.goto writer
          (if (rest.take multipartChunk).length < multipartChunk then
            .completing (sent ++ rest.take multipartChunk)
          else .sending (sent ++ rest.take multipartChunk)) with
        object := state.object } := by
  have left : (bytes writer).drop sent.length = rest := by
    rw [← whole, List.drop_left]
  simp only [step, running, left]
  split <;> rfl

/-- A multipart upload sends the pieces that are left and gets to its end. -/
theorem alone_sends {sent rest : Bytes} {parts : List Bytes}
    (running : state.pc writer = .sending sent)
    (whole : sent ++ rest = bytes writer)
    (cut : Cut multipartChunk rest parts) :
    ∃ final, Alone bytes writer state final ∧
      final.pc writer = .completing (bytes writer) := by
  induction cut generalizing state sent with
  | done =>
      have stepped := step_sending running whole
      rw [List.take_nil, List.length_nil, if_pos multipartChunk_pos,
        whole] at stepped
      exact ⟨_, .cons stepped (.refl _), goto_self _ _ _⟩
  | short _ small =>
      have stepped := step_sending running whole
      rw [List.take_of_length_le (Nat.le_of_lt small), if_pos small,
        whole] at stepped
      exact ⟨_, .cons stepped (.refl _), goto_self _ _ _⟩
  | full size _ ih =>
      have stepped := step_sending running whole
      rw [List.take_left' size, size, if_neg (Nat.lt_irrefl _)] at stepped
      rw [← List.append_assoc] at whole
      obtain ⟨final, alone, ended⟩ := ih (goto_self state writer _) whole
      exact ⟨final, .cons stepped alone, ended⟩

/-- A large upload ends well whatever is in the store. -/
theorem alone_large (running : state.pc writer = .ready)
    (large : multipartThreshold ≤ (bytes writer).length) :
    ∃ final, Alone bytes writer state final ∧
      final.pc writer = .finished true ∧
      final.object = some (bytes writer) := by
  have opens : state.step bytes (writer, .done) =
      some { state.goto writer (.sending []) with object := state.object } := by
    simp only [step, running, if_pos large]
    rfl
  obtain ⟨parts, cut⟩ := Cut.exists_parts multipartChunk_pos (bytes writer)
  obtain ⟨sent, alone, ended⟩ :=
    alone_sends (goto_self state writer (.sending [])) rfl cut
  have completes : sent.step bytes (writer, .done) =
      some { sent.goto writer .removing with object := some (bytes writer) } := by
    simp only [step, ended]
  have removes : Rivals.step bytes
      { sent.goto writer .removing with object := some (bytes writer) }
      (writer, .done) =
      some { Rivals.goto
          { sent.goto writer .removing with object := some (bytes writer) }
          writer (.finished true) with
        object := some (bytes writer) } := by
    simp only [step, goto_self]
    rfl
  have rest := Alone.cons completes (.cons removes (.refl _))
  refine ⟨_, .cons opens ⟨alone.1.trans rest.1, ?_⟩, goto_self _ _ _, rfl⟩
  exact fun other apart => (rest.2 other apart).trans (alone.2 other apart)

/-- A small upload ends well where nothing is in the store. -/
theorem alone_small (running : state.pc writer = .ready)
    (small : (bytes writer).length < multipartThreshold)
    (absent : state.object = none) :
    ∃ final, Alone bytes writer state final ∧
      final.pc writer = .finished true := by
  have opens : state.step bytes (writer, .done) =
      some { state.goto writer .creating with object := none } := by
    simp only [step, running, if_neg (Nat.not_le.mpr small)]
    rw [← absent]
    rfl
  have creates : Rivals.step bytes
      { state.goto writer .creating with object := none } (writer, .done) =
      some { Rivals.goto { state.goto writer .creating with object := none }
          writer .removing with
        object := some (bytes writer) } := by
    simp only [step, goto_self]
  have removes : Rivals.step bytes
      { Rivals.goto { state.goto writer .creating with object := none }
          writer .removing with
        object := some (bytes writer) } (writer, .done) =
      some { Rivals.goto
          { Rivals.goto { state.goto writer .creating with object := none }
              writer .removing with
            object := some (bytes writer) } writer (.finished true) with
        object := some (bytes writer) } := by
    simp only [step, goto_self]
    rfl
  exact ⟨_, .cons opens (.cons creates (.cons removes (.refl _))),
    goto_self _ _ _⟩

/-- A large file and another one can both be uploaded with success. -/
theorem both_succeed {large other : ι} (apart : other ≠ large)
    (size : multipartThreshold ≤ (bytes large).length) :
    ∃ state, Reaches (step bytes) (fun _ _ => True) start state ∧
      state.pc other = .finished true ∧ state.pc large = .finished true := by
  obtain ⟨middle, first, otherDone⟩ : ∃ final,
      Alone bytes other start final ∧ final.pc other = .finished true := by
    by_cases otherSize : multipartThreshold ≤ (bytes other).length
    · obtain ⟨final, alone, done, _⟩ := @alone_large _ _ bytes start _ rfl
        otherSize
      exact ⟨final, alone, done⟩
    · exact alone_small rfl (Nat.lt_of_not_le otherSize) rfl
  have ready : middle.pc large = .ready := first.2 large apart.symm
  obtain ⟨final, second, largeDone, _⟩ := alone_large ready size
  exact ⟨final, first.1.trans second.1,
    (second.2 other apart).trans otherDone, largeDone⟩

/-- Uploads to one key agree in every interleaving exactly when no large file
has a rival. -/
theorem agrees_iff_unrivaled (bytes : ι → Bytes) :
    (∀ state, Reaches (step bytes) (fun _ _ => True) start state →
      Agrees bytes state) ↔ Unrivaled bytes := by
  constructor
  · intro agrees large other size
    by_cases apart : other = large
    · rw [apart]
    · obtain ⟨state, run, otherDone, largeDone⟩ := both_succeed apart size
      exact (agrees state run).1 other large otherDone largeDone
  · exact fun unrivaled state run => agrees_of_unrivaled unrivaled run

/-- Two databases of 16 MiB, uploaded by two hosts. -/
def twoHosts (writer : Bool) : Bytes :=
  List.replicate multipartThreshold (if writer then 1 else 0)

theorem two_hosts_disagree :
    ∃ state, Reaches (step twoHosts) (fun _ _ => True) start state ∧
      state.pc false = .finished true ∧ state.pc true = .finished true ∧
      twoHosts false ≠ twoHosts true := by
  have size : multipartThreshold ≤ (twoHosts true).length := by
    rw [twoHosts, List.length_replicate]
  obtain ⟨state, run, first, second⟩ :=
    @both_succeed Bool _ twoHosts true false (by decide) size
  refine ⟨state, run, first, second, ?_⟩
  intro same
  have nonzero : multipartThreshold ≠ 0 := by norm_num [multipartThreshold]
  have heads := congrArg List.head? same
  rw [twoHosts, twoHosts, List.head?_replicate, List.head?_replicate,
    if_neg nonzero, if_neg nonzero] at heads
  exact absurd heads (by decide)

end Rivals

end Uploading

end Literstream
