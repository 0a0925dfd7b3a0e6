import Literstream.Lib.Asking
import Literstream.Restore.Frozen

/-!
# Reading programs beside a live writer

A reader is a program whose queries are answered by the replica of their moment.
What is proved of the program against a frozen store holds of it beside the
writer.
-/

namespace Literstream

open Std

/-- A LIST of a level, or a GET of a file. -/
inductive Query where
  | level (level : Nat)
  | file (key : FileKey)

def Query.Reply : Query → Type
  | .level _ => List FileKey
  | .file _ => LtxFile

/-- A program that only reads. -/
abbrev Visitor := Asking Query Query.Reply

/-- What a store replies. -/
def replies (store : Store) : (query : Query) → Option query.Reply
  | .level level => some (listLevel store level)
  | .file key => store[key]?

/-- A program that lists every level at most once and fetches listed files
only. -/
def Polite {α : Type} (answers : Listings) : Visitor α → Prop
  | .returns _ => True
  | .asks (.level level) next =>
      (level ≤ maxLevel ∧ answers.answered level = false) ∧
        Polite answers (next none) ∧
        ∀ keys, Polite ((level, keys) :: answers) (next (some keys))
  | .asks (.file key) next =>
      key ∈ answers.files ∧ ∀ reply, Polite answers (next reply)

/-- A query for one of the given files. -/
def Query.Fetches (files : List FileKey) : Query → Prop
  | .level _ => False
  | .file key => key ∈ files

theorem Polite.of_fetches {α : Type} {answers : Listings} {visitor : Visitor α}
    {post : α → Prop}
    (fetches : visitor.Always (Query.Fetches answers.files) post) :
    Polite answers visitor := by
  induction visitor with
  | returns value => trivial
  | asks query next ih =>
      cases query with
      | level level => exact fetches.1.elim
      | file key => exact ⟨fetches.1, fun reply => ih reply (fetches.2 reply)⟩

/-- A writer, what is left of a program, and the replies that it got. -/
structure Visit (α : Type) where
  writer : Writer
  visitor : Visitor α
  events : List (Asking.Event Query Query.Reply)

inductive VisitAction where
  | writes (progress : CallProgress)
  | replies (failed : Bool)

def Visit.step {α : Type} (encodedSize : LtxFile → Nat) (visit : Visit α) :
    VisitAction → Option (Visit α)
  | .writes progress => do
      let writer ← visit.writer.step encodedSize progress
      return { visit with writer := writer }
  | .replies failed =>
      match visit.visitor with
      | .returns _ => none
      | .asks query next =>
          let reply :=
            if failed then none
            else Literstream.replies (visit.writer.visible encodedSize).store query
          some
            { visit with
              visitor := next reply
              events := visit.events ++ [⟨query, reply⟩] }

def Visit.start {α : Type} (visitor : Visitor α) : Visit α where
  writer := { replica := Levels.empty, running := none }
  visitor := visitor
  events := []

/-- The writer cascades. -/
def History.visits {α : Type} (history : History) (visit : Visit α) :
    VisitAction → Prop
  | .writes (.begins call) =>
      history.cascades visit.writer.replica { faults := [], call := call }
  | _ => True

/-! ## Any program -/

section Programs

variable {α : Type} {history : History} {encodedSize : LtxFile → Nat}

/-- A reply that was recorded, unless it failed. -/
def InRecord (told : Observations) :
    Asking.Event Query Query.Reply → Prop
  | ⟨.level level, reply⟩ => reply = none ∨ told.answers.lookup level = reply
  | ⟨.file key, reply⟩ => reply = none ∨ (key, reply) ∈ told.responses

/-- The replies make up what a reader was told. -/
structure Visit.Sound (history : History) (encodedSize : LtxFile → Nat)
    (start : Visitor α) (visit : Visit α) : Prop where
  after : Asking.After start visit.events visit.visitor
  recorded : ∃ told : Observations,
    Watch.Sound history encodedSize { writer := visit.writer, told := told } ∧
      Polite told.answers visit.visitor ∧
      ∀ event ∈ visit.events, InRecord told event

theorem InRecord.lists {told : Observations} {level : Nat}
    {keys : List FileKey} (fresh : told.answers.answered level = false)
    {event : Asking.Event Query Query.Reply} (recorded : InRecord told event) :
    InRecord { told with answers := (level, keys) :: told.answers } event := by
  obtain ⟨query, reply⟩ := event
  cases query with
  | level other =>
      rcases recorded with failed | found
      · exact .inl failed
      · rcases Nat.decEq other level with different | rfl
        · right
          dsimp only
          rw [Listings.lookup_cons, if_neg different]
          exact found
        · left
          unfold Listings.answered at fresh
          rw [found] at fresh
          exact Option.isNone_iff_eq_none.mp
            (Option.isSome_eq_false_iff.mp fresh)
  | file key => exact recorded

theorem InRecord.gets {told : Observations}
    {response : FileKey × Option LtxFile}
    {event : Asking.Event Query Query.Reply} (recorded : InRecord told event) :
    InRecord { told with responses := response :: told.responses } event := by
  obtain ⟨query, reply⟩ := event
  cases query with
  | level other => exact recorded
  | file key =>
      rcases recorded with failed | found
      · exact .inl failed
      · exact .inr (List.mem_cons_of_mem _ found)

theorem Visit.Sound.step {start : Visitor α} {visit next : Visit α}
    {action : VisitAction} (sound : visit.Sound history encodedSize start)
    (allowed : history.visits visit action)
    (stepped : visit.step encodedSize action = some next) :
    next.Sound history encodedSize start := by
  obtain ⟨after, told, watched, polite, recorded⟩ := sound
  cases action with
  | writes progress =>
      simp only [Visit.step, Option.bind_eq_bind, Option.pure_def,
        Option.bind_eq_some_iff] at stepped
      obtain ⟨writer, written, same⟩ := stepped
      cases same
      have followed : Watch.step encodedSize
          { writer := visit.writer, told := told } (.writes progress) =
          some { writer := writer, told := told } := by
        simp only [Watch.step, written]
        rfl
      have moved := watched.step (by
        cases progress <;> exact allowed) followed
      exact ⟨after, told, moved, polite, recorded⟩
  | replies failed =>
      simp only [Visit.step] at stepped
      split at stepped
      · cases stepped
      · rename_i query rest asking
        rw [asking] at after polite
        cases stepped
        refine ⟨after.snoc _, ?_⟩
        have appended {told : Observations} {reply : Option query.Reply}
            (earlier : ∀ event ∈ visit.events, InRecord told event)
            (latest : InRecord told ⟨query, reply⟩) :
            ∀ event ∈ visit.events ++ [⟨query, reply⟩], InRecord told event := by
          intro event member
          rcases List.mem_append.mp member with before | last
          · exact earlier event before
          · rw [List.mem_singleton.mp last]
            exact latest
        cases failed with
        | true =>
            refine ⟨told, watched, ?_, appended recorded ?_⟩
            · cases query with
              | level level => exact polite.2.1
              | file key => exact polite.2 none
            · cases query <;> exact .inl rfl
        | false =>
            cases query with
            | level level =>
                obtain ⟨asked, _, goes⟩ := polite
                have followed : Watch.step encodedSize
                    { writer := visit.writer, told := told } (.lists level) =
                    some
                      { writer := visit.writer
                        told :=
                          { told with
                            answers := (level, listLevel
                              (visit.writer.visible encodedSize).store level)
                                :: told.answers } } := by
                  simp only [Watch.step]
                  rw [if_pos asked]
                have moved := @Watch.Sound.step history encodedSize _ _ (.lists level)
                  watched trivial followed
                refine ⟨_, moved, goes _, appended (fun event member =>
                  (recorded event member).lists asked.2) ?_⟩
                right
                dsimp only
                rw [Listings.lookup_cons, if_pos rfl]
                rfl
            | file key =>
                obtain ⟨listed, goes⟩ := polite
                have followed : Watch.step encodedSize
                    { writer := visit.writer, told := told } (.gets key) =
                    some
                      { writer := visit.writer
                        told :=
                          { told with
                            responses := (key,
                              (visit.writer.visible encodedSize).store[key]?)
                                :: told.responses } } := by
                  simp only [Watch.step]
                  rw [if_pos listed]
                have moved := @Watch.Sound.step history encodedSize _ _
                  (.gets key) watched trivial followed
                refine ⟨_, moved, goes _,
                  appended (fun event member => (recorded event member).gets)
                    ?_⟩
                exact .inr List.mem_cons_self

/-- What a program returned could come from one frozen replica with exact
files. -/
theorem Visit.Sound.sees {start : Visitor α} {visit : Visit α} {value : α}
    (sound : visit.Sound history encodedSize start)
    (done : visit.visitor = .returns value) :
    ∃ frozen, history.FaithfulStore frozen ∧
      Synced (visit.writer.visible encodedSize).txid frozen.keys ∧
      ∀ post, start.Yields (replies frozen) post → post value := by
  obtain ⟨after, told, ⟨_, front, frozen, _, agrees⟩, _, recorded⟩ := sound
  rw [done] at after
  refine ⟨frozen, agrees.faithful, agrees.keys_synced, ?_⟩
  intro post yields
  apply yields.after after
  rintro ⟨query, reply⟩ member
  have found := recorded _ member
  cases query with
  | level level =>
      rcases found with failed | found
      · exact .inl failed
      · cases reply with
        | none => exact .inl rfl
        | some keys =>
            right
            rw [agrees.listed level keys found]
            rfl
  | file key =>
      rcases found with failed | found
      · exact .inl failed
      · exact agrees.told key reply found

/-- A program that is about to begin beside a writer in order. -/
theorem Visit.Sound.begins {start next : Visitor α} {visit : Visit α}
    (sound : visit.Sound history encodedSize start)
    (polite : Polite [] next) :
    Visit.Sound history encodedSize next
      { writer := visit.writer, visitor := next, events := [] } := by
  obtain ⟨_, told, watched, _, _⟩ := sound
  refine ⟨.nil, { answers := [], responses := [] }, watched.forgets, polite, ?_⟩
  rintro _ ⟨⟩

/-- What a polite program returns beside the writer is what it may return from
one frozen replica with exact files, whichever of its queries fail there. -/
theorem visitor_sees_frozen {start : Visitor α} {visit : Visit α} {value : α}
    (polite : Polite [] start)
    (run : Machine.Reaches (Visit.step encodedSize) history.visits
      (Visit.start start) visit)
    (done : visit.visitor = .returns value) :
    ∃ frozen, history.FaithfulStore frozen ∧
      Synced (visit.writer.visible encodedSize).txid frozen.keys ∧
      ∀ post, start.Yields (replies frozen) post → post value := by
  have sound : visit.Sound history encodedSize start := by
    apply run.invariant
    · refine ⟨.nil, { answers := [], responses := [] }, ?_, polite, ?_⟩
      · exact Watch.start_sound
      · rintro _ ⟨⟩
    · exact fun _ _ _ sound allowed stepped => sound.step allowed stepped
  exact sound.sees done

end Programs

end Literstream
