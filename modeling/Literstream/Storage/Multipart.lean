import Literstream.Lib.Chunks
import Literstream.Lib.PagedFile
import Literstream.Lib.Script
import Literstream.Storage.Names
import Literstream.Storage.Writers

/-!
# The multipart upload

`put_ltx_multipart` with its two loops: the inner one fills the buffer from a
file whose reads may be short, the outer one sends what was read.  What the
file system and the store answer is given; the run is the trace of the calls on
the store.
-/

namespace Literstream

namespace Storage

open Chunks PagedFile

/-- Errors of the replica client. -/
inductive StorageError where
  | objectStore
  | io
deriving DecidableEq, Repr

/-- The calls on the store, with whether they succeeded. -/
inductive UploadOp where
  | putMultipart (key : ObjectPath) (ok : Bool)
  | putPart (part : Bytes) (ok : Bool)
  | abort
  | complete (ok : Bool)
deriving DecidableEq

/-- The part that an operation sends. -/
def UploadOp.part? : UploadOp → Option Bytes
  | .putPart part _ => some part
  | _ => none

/-- How many bytes one `read` returns: as many as fit and are there, and none
only if nothing fits or nothing is there. -/
structure ReadCount (room left : Nat) where
  value : Nat
  fits : value ≤ room
  there : value ≤ left
  progress : value = 0 → room = 0 ∨ left = 0

/-- What the successive `read` calls on a file answer; `none` is an error. -/
abbrev FileReads (content : Bytes) :=
  (call position room : Nat) →
    Option (ReadCount room (content.length - position))

/-- An open file: where it is read next, and the reads so far. -/
structure OpenFile where
  position : Nat
  calls : Nat
deriving DecidableEq, Repr

/-- The file after one more read. -/
def OpenFile.after (file : OpenFile) (count : Nat) : OpenFile where
  position := file.position + count
  calls := file.calls + 1

section Reading

variable {content : Bytes}

/-- The loop of `fill`, which reads until the buffer is full or the file
ends. -/
def fillFrom (reads : FileReads content) (file : OpenFile) (buf : Bytes)
    (filled : Nat) : Except StorageError (Nat × OpenFile × Bytes) :=
  if filled < buf.length then
    match reads file.calls file.position (buf.length - filled) with
    | none => .error .io
    | some n =>
        if n.value = 0 then .ok (filled, file.after 0, buf)
        else
          fillFrom reads (file.after n.value)
            (writeAt filled ((content.drop file.position).take n.value) buf)
            (filled + n.value)
  else .ok (filled, file, buf)
termination_by buf.length - filled
decreasing_by
  have fits := n.fits
  rw [length_writeAt, List.length_take_of_le (by simpa using n.there)]
  omega

section Equations

variable {reads : FileReads content} {file : OpenFile} {buf : Bytes}
  {filled : Nat}

theorem fillFrom_of_full (full : ¬filled < buf.length) :
    fillFrom reads file buf filled = .ok (filled, file, buf) := by
  rw [fillFrom, if_neg full]

theorem fillFrom_of_error (more : filled < buf.length)
    (failed : reads file.calls file.position (buf.length - filled) = none) :
    fillFrom reads file buf filled = .error .io := by
  rw [fillFrom, if_pos more, failed]

theorem fillFrom_of_end (more : filled < buf.length)
    {count : ReadCount (buf.length - filled) (content.length - file.position)}
    (answer : reads file.calls file.position (buf.length - filled) =
      some count)
    (zero : count.value = 0) :
    fillFrom reads file buf filled = .ok (filled, file.after 0, buf) := by
  rw [fillFrom, if_pos more, answer]
  exact if_pos zero

theorem fillFrom_of_read (more : filled < buf.length)
    {count : ReadCount (buf.length - filled) (content.length - file.position)}
    (answer : reads file.calls file.position (buf.length - filled) =
      some count)
    (nonzero : count.value ≠ 0) :
    fillFrom reads file buf filled =
      fillFrom reads (file.after count.value)
        (writeAt filled ((content.drop file.position).take count.value) buf)
        (filled + count.value) := by
  rw [fillFrom, if_pos more, answer]
  exact if_neg nonzero

end Equations

/-- Read up to `buf.length` bytes. -/
def fill (reads : FileReads content) (file : OpenFile) (buf : Bytes) :
    Except StorageError (Nat × OpenFile × Bytes) :=
  fillFrom reads file buf 0

/-- What is in the buffer was read from `start` on. -/
structure Filling (content : Bytes) (start room filled : Nat)
    (file : OpenFile) (buf : Bytes) : Prop where
  size : buf.length = room
  inside : filled ≤ room
  there : filled ≤ content.length - start
  position : file.position = start + filled
  bytes : buf.take filled = (content.drop start).take filled

namespace Filling

variable {start room filled : Nat} {file : OpenFile} {buf : Bytes}

theorem empty (file : OpenFile) (buf : Bytes) :
    Filling content file.position buf.length 0 file buf where
  size := rfl
  inside := Nat.zero_le _
  there := Nat.zero_le _
  position := rfl
  bytes := rfl

/-- One read. -/
theorem after {count : Nat}
    (filling : Filling content start room filled file buf)
    (fits : count ≤ buf.length - filled)
    (left : count ≤ content.length - file.position) :
    Filling content start room (filled + count) (file.after count)
      (writeAt filled ((content.drop file.position).take count) buf) := by
  obtain ⟨size, inside, there, position, bytes⟩ := filling
  rw [position] at left ⊢
  have data : ((content.drop (start + filled)).take count).length = count := by
    apply List.length_take_of_le
    rw [List.length_drop]
    exact left
  constructor
  · rw [length_writeAt, data]
    omega
  · omega
  · omega
  · rw [OpenFile.after, position, Nat.add_assoc]
  · calc (writeAt filled ((content.drop (start + filled)).take count) buf).take
          (filled + count)
      _ = buf.take filled ++ (content.drop (start + filled)).take count := by
          rw [← take_writeAt (by omega), data]
      _ = (content.drop start).take (filled + count) := by
          rw [bytes, ← List.drop_drop, List.take_add]

end Filling

/-- The loop of `fill` stops with a full buffer or at the end of the file. -/
theorem fillFrom_spec {reads : FileReads content} {file next : OpenFile}
    {buf bytes : Bytes} {start room filled n : Nat}
    (filling : Filling content start room filled file buf)
    (ended : fillFrom reads file buf filled = .ok (n, next, bytes)) :
    Filling content start room n next bytes ∧
      (n = room ∨ n = content.length - start) := by
  induction file, buf, filled using fillFrom.induct reads with
  | case1 file buf filled more failed =>
      rw [fillFrom_of_error more failed] at ended
      cases ended
  | case2 file buf filled more count answer zero =>
      rw [fillFrom_of_end more answer zero] at ended
      cases ended
      have exhausted : content.length - file.position = 0 := by
        rcases count.progress zero with noRoom | nothing
        · omega
        · exact nothing
      have there := filling.there
      have position := filling.position
      exact ⟨{ filling with position := filling.position }, .inr (by omega)⟩
  | case3 file buf filled more count answer nonzero ih =>
      rw [fillFrom_of_read more answer nonzero] at ended
      exact ih (filling.after count.fits count.there) ended
  | case4 file buf filled full =>
      rw [fillFrom_of_full full] at ended
      cases ended
      have size := filling.size
      have inside := filling.inside
      exact ⟨filling, .inl (by omega)⟩

theorem fill_spec {reads : FileReads content} {file next : OpenFile}
    {buf bytes : Bytes} {n : Nat}
    (ended : fill reads file buf = .ok (n, next, bytes)) :
    Filling content file.position buf.length n next bytes ∧
      (n = buf.length ∨ n = content.length - file.position) :=
  fillFrom_spec (Filling.empty file buf) ended

/-- Only a failed read stops `fill`. -/
theorem fillFrom_error {reads : FileReads content} {file : OpenFile}
    {buf : Bytes} {filled : Nat} {error : StorageError}
    (failed : fillFrom reads file buf filled = .error error) :
    error = .io := by
  induction file, buf, filled using fillFrom.induct reads with
  | case1 file buf filled more unread =>
      rw [fillFrom_of_error more unread] at failed
      cases failed
      rfl
  | case2 file buf filled more count answer zero =>
      rw [fillFrom_of_end more answer zero] at failed
      cases failed
  | case3 file buf filled more count answer nonzero ih =>
      rw [fillFrom_of_read more answer nonzero] at failed
      exact ih failed
  | case4 file buf filled full =>
      rw [fillFrom_of_full full] at failed
      cases failed

theorem exists_fillFrom {reads : FileReads content}
    (readable : ∀ call position room, (reads call position room).isSome = true)
    (file : OpenFile) (buf : Bytes) (filled : Nat) :
    ∃ result, fillFrom reads file buf filled = .ok result := by
  induction file, buf, filled using fillFrom.induct reads with
  | case1 file buf filled more failed =>
      have answered :=
        readable file.calls file.position (buf.length - filled)
      rw [failed] at answered
      cases answered
  | case2 file buf filled more count answer zero =>
      exact ⟨_, fillFrom_of_end more answer zero⟩
  | case3 file buf filled more count answer nonzero ih =>
      rw [fillFrom_of_read more answer nonzero]
      exact ih
  | case4 file buf filled full =>
      exact ⟨_, fillFrom_of_full full⟩

/-- The loop that sends the file.  `stored` says which parts the store takes;
a part that it refuses aborts the upload, whatever the abort answers. -/
def sendParts (reads : FileReads content) (stored : Nat → Bool)
    (file : OpenFile) (buf : Bytes) (sent : Nat) :
    Script UploadOp StorageError Unit :=
  match ended : fill reads file buf with
  | .error error => Script.lift (.error error)
  | .ok (n, next, bytes) =>
      if nothing : n = 0 then pure ()
      else if stored sent = false then
        { ops := [.putPart (bytes.take n) false, .abort]
          result := .error .objectStore }
      else if n < bytes.length then
        Script.emit (.putPart (bytes.take n) true)
      else do
        Script.emit (.putPart (bytes.take n) true)
        sendParts reads stored next bytes (sent + 1)
termination_by content.length - file.position
decreasing_by
  have there := (fill_spec ended).1.there
  have position := (fill_spec ended).1.position
  omega

theorem sendParts_of_error {reads : FileReads content} {stored : Nat → Bool}
    {file : OpenFile} {buf : Bytes} {sent : Nat} {error : StorageError}
    (failed : fill reads file buf = .error error) :
    sendParts reads stored file buf sent = Script.lift (.error error) := by
  rw [sendParts]
  split
  · rename_i other ended
    rw [failed] at ended
    cases ended
    rfl
  · rename_i ended
    rw [failed] at ended
    cases ended

theorem sendParts_of_ok {reads : FileReads content} {stored : Nat → Bool}
    {file next : OpenFile} {buf bytes : Bytes} {sent n : Nat}
    (ended : fill reads file buf = .ok (n, next, bytes)) :
    sendParts reads stored file buf sent =
      if n = 0 then pure ()
      else if stored sent = false then
        { ops := [.putPart (bytes.take n) false, .abort]
          result := .error .objectStore }
      else if n < bytes.length then
        Script.emit (.putPart (bytes.take n) true)
      else
        Script.emit (.putPart (bytes.take n) true) >>= fun _ =>
          sendParts reads stored next bytes (sent + 1) := by
  rw [sendParts]
  split
  · rename_i failed
    rw [ended] at failed
    cases failed
  · rename_i again
    rw [ended] at again
    cases again
    rfl

end Reading

/-! ## What the loop sends -/

def UploadOp.stored (part : Bytes) : UploadOp := .putPart part true

/-- The ways in which the loop ends that has `parts` to send: all of them are
stored, or a read fails behind the ones that are, or the store refuses the next
one. -/
inductive Sends : List Bytes → Script UploadOp StorageError Unit → Prop where
  | all (parts : List Bytes) :
      Sends parts { ops := parts.map .stored, result := .ok () }
  | unread (sent rest : List Bytes) :
      Sends (sent ++ rest)
        { ops := sent.map .stored, result := .error .io }
  | refused (sent : List Bytes) (part : Bytes) (rest : List Bytes) :
      Sends (sent ++ part :: rest)
        { ops := sent.map .stored ++ [.putPart part false, .abort]
          result := .error .objectStore }

namespace Sends

variable {parts : List Bytes} {script : Script UploadOp StorageError Unit}

theorem cons (part : Bytes) (sends : Sends parts script) :
    Sends (part :: parts)
      { ops := .stored part :: script.ops, result := script.result } := by
  cases sends with
  | all => exact all (part :: parts)
  | unread sent rest => exact unread (part :: sent) rest
  | refused sent refusedPart rest =>
      exact refused (part :: sent) refusedPart rest

theorem parts_isPrefix (sends : Sends parts script) :
    script.ops.filterMap UploadOp.part? <+: parts := by
  have storedParts (sent : List Bytes) :
      (sent.map UploadOp.stored).filterMap UploadOp.part? = sent := by
    rw [List.filterMap_map]
    exact List.filterMap_some
  cases sends with
  | all =>
      rw [storedParts]
  | unread sent rest =>
      rw [storedParts]
      exact List.prefix_append sent rest
  | refused sent part rest =>
      rw [List.filterMap_append, storedParts]
      exact ⟨rest, by simp [UploadOp.part?]⟩

theorem ops_of_ok (sends : Sends parts script)
    (finished : script.result = .ok ()) :
    script.ops = parts.map .stored := by
  cases sends with
  | all => rfl
  | unread sent rest => cases finished
  | refused sent part rest => cases finished

/-- The loop itself does not complete the upload. -/
theorem complete_notMem (sends : Sends parts script) (ok : Bool) :
    .complete ok ∉ script.ops := by
  cases sends <;> simp [UploadOp.stored]

end Sends

section Pieces

variable {content : Bytes} {reads : FileReads content}
  {file next : OpenFile} {buf bytes : Bytes} {n : Nat}

theorem cut_of_nothing (room : 0 < buf.length)
    (ended : fill reads file buf = .ok (0, next, bytes)) :
    Cut buf.length (content.drop file.position) [] := by
  have exhausted : content.length ≤ file.position := by
    rcases (fill_spec ended).2 with full | last <;> omega
  rw [List.drop_eq_nil_of_le exhausted]
  exact .done

/-- A short read was the last one. -/
theorem cut_of_short (ended : fill reads file buf = .ok (n, next, bytes))
    (some : n ≠ 0) (short : n < bytes.length) :
    Cut buf.length (content.drop file.position) [bytes.take n] := by
  obtain ⟨filling, stopped⟩ := fill_spec ended
  have size := filling.size
  have left : (content.drop file.position).length = n := by
    rw [List.length_drop]
    rcases stopped with full | last <;> omega
  have whole : bytes.take n = content.drop file.position := by
    rw [filling.bytes, ← left, List.take_length]
  rw [whole]
  apply Cut.short
  · apply List.ne_nil_of_length_pos
    omega
  · omega

theorem cut_of_full (ended : fill reads file buf = .ok (n, next, bytes))
    (full : ¬n < bytes.length) {parts : List Bytes}
    (later : Cut buf.length (content.drop next.position) parts) :
    Cut buf.length (content.drop file.position) (bytes.take n :: parts) := by
  have filling := (fill_spec ended).1
  have size := filling.size
  have inside := filling.inside
  have there := filling.there
  have count : n = buf.length := by omega
  rw [filling.position, ← List.drop_drop, count] at later
  rw [filling.bytes, count]
  apply later.take_cons
  rw [List.length_drop]
  omega

theorem exists_cut_cons (room : 0 < buf.length)
    (ended : fill reads file buf = .ok (n, next, bytes)) (some : n ≠ 0) :
    ∃ parts,
      Cut buf.length (content.drop file.position) (bytes.take n :: parts) := by
  by_cases short : n < bytes.length
  · exact ⟨[], cut_of_short ended some short⟩
  · obtain ⟨parts, later⟩ :=
      Cut.exists_parts room (content.drop next.position)
    exact ⟨parts, cut_of_full ended short later⟩

end Pieces

/-- Whatever the reads return, the loop sends the pieces of the file. -/
theorem sendParts_sends {content : Bytes} (reads : FileReads content)
    (stored : Nat → Bool) (file : OpenFile) (buf : Bytes) (sent : Nat)
    (room : 0 < buf.length) :
    ∃ parts, Cut buf.length (content.drop file.position) parts ∧
      Sends parts (sendParts reads stored file buf sent) := by
  induction file, buf, sent using sendParts.induct reads stored with
  | case1 file buf sent error failed =>
      obtain ⟨parts, cut⟩ :=
        Cut.exists_parts room (content.drop file.position)
      refine ⟨parts, cut, ?_⟩
      rw [sendParts_of_error failed, fillFrom_error failed]
      exact .unread [] parts
  | case2 file buf sent next bytes ended =>
      refine ⟨[], cut_of_nothing room ended, ?_⟩
      rw [sendParts_of_ok ended, if_pos rfl]
      exact .all []
  | case3 file buf sent n next bytes ended some refused =>
      obtain ⟨parts, cut⟩ := exists_cut_cons room ended some
      refine ⟨bytes.take n :: parts, cut, ?_⟩
      rw [sendParts_of_ok ended, if_neg some, if_pos refused]
      exact .refused [] (bytes.take n) parts
  | case4 file buf sent n next bytes ended some taken short =>
      refine ⟨[bytes.take n], cut_of_short ended some short, ?_⟩
      rw [sendParts_of_ok ended, if_neg some, if_neg taken, if_pos short]
      exact .all [bytes.take n]
  | case5 file buf sent n next bytes ended some taken full ih =>
      have size : bytes.length = buf.length := (fill_spec ended).1.size
      obtain ⟨parts, later, sends⟩ := ih (size ▸ room)
      rw [size] at later
      refine ⟨bytes.take n :: parts, cut_of_full ended full later, ?_⟩
      rw [sendParts_of_ok ended, if_neg some, if_neg taken, if_neg full]
      exact sends.cons (bytes.take n)

/-- Without failures the loop gets to the end of the file. -/
theorem sendParts_ok {content : Bytes} {reads : FileReads content}
    {stored : Nat → Bool}
    (readable : ∀ call position room, (reads call position room).isSome = true)
    (taking : ∀ part, stored part = true)
    (file : OpenFile) (buf : Bytes) (sent : Nat) :
    (sendParts reads stored file buf sent).result = .ok () := by
  induction file, buf, sent using sendParts.induct reads stored with
  | case1 file buf sent error failed =>
      obtain ⟨result, ended⟩ := exists_fillFrom readable file buf 0
      have impossible := failed.symm.trans ended
      cases impossible
  | case2 file buf sent next bytes ended =>
      rw [sendParts_of_ok ended, if_pos rfl]
      rfl
  | case3 file buf sent n next bytes ended some refused =>
      rw [taking] at refused
      cases refused
  | case4 file buf sent n next bytes ended some taken short =>
      rw [sendParts_of_ok ended, if_neg some, if_neg taken, if_pos short]
      rfl
  | case5 file buf sent n next bytes ended some taken full ih =>
      rw [sendParts_of_ok ended, if_neg some, if_neg taken, if_neg full]
      exact ih

/-- What the store and the file system answer during one upload. -/
structure Answers (content : Bytes) where
  created : Bool
  opened : Bool
  reads : FileReads content
  stored : Nat → Bool
  completed : Bool

/-- One call on the store. -/
def perform (op : Bool → UploadOp) (ok : Bool) :
    Script UploadOp StorageError Unit where
  ops := [op ok]
  result := if ok then .ok () else .error .objectStore

def putLtxMultipart {content : Bytes} (encodePart : Bytes → Bytes)
    (client : ReplicaClient) (level : UInt32) (minTxid maxTxid : UInt64)
    (answers : Answers content) : Script UploadOp StorageError Unit := do
  perform (.putMultipart (client.ltxKey encodePart level minTxid maxTxid))
    answers.created
  Script.lift (if answers.opened then .ok () else .error .io)
  sendParts answers.reads answers.stored ⟨0, 0⟩
    (List.replicate multipartChunk 0) 0
  perform .complete answers.completed

/-! ## The whole upload -/

/-- The loop of an upload, from the start of the file. -/
def Answers.loop {content : Bytes} (answers : Answers content) :
    Script UploadOp StorageError Unit :=
  sendParts answers.reads answers.stored ⟨0, 0⟩
    (List.replicate multipartChunk 0) 0

/-- Nothing fails before the upload is completed. -/
structure Answers.Steady {content : Bytes} (answers : Answers content) :
    Prop where
  created : answers.created = true
  opened : answers.opened = true
  readable : ∀ call position room,
    (answers.reads call position room).isSome = true
  stored : ∀ part, answers.stored part = true

theorem Answers.exists_cut {content : Bytes} (answers : Answers content) :
    ∃ parts, Cut multipartChunk content parts ∧ Sends parts answers.loop := by
  have size := List.length_replicate (n := multipartChunk) (a := (0 : UInt8))
  have pieces :=
    sendParts_sends answers.reads answers.stored ⟨0, 0⟩
      (List.replicate multipartChunk 0) 0 (size.symm ▸ multipartChunk_pos)
  rw [size, List.drop_zero] at pieces
  exact pieces

section Uploading

variable {content : Bytes} (encodePart : Bytes → Bytes)
  (client : ReplicaClient) (level : UInt32) (minTxid maxTxid : UInt64)
  (answers : Answers content)

/-- The upload stops before the loop, or in it, or completes. -/
theorem putLtxMultipart_cases :
    let upload :=
      putLtxMultipart encodePart client level minTxid maxTxid answers
    let key := client.ltxKey encodePart level minTxid maxTxid
    (answers.created = false ∧
      upload =
        { ops := [.putMultipart key false], result := .error .objectStore }) ∨
    (answers.opened = false ∧
      upload = { ops := [.putMultipart key true], result := .error .io }) ∨
    (∃ error, answers.loop.result = .error error ∧
      upload =
        { ops := .putMultipart key true :: answers.loop.ops
          result := .error error }) ∨
    (answers.loop.result = .ok () ∧
      upload =
        { ops :=
            .putMultipart key true ::
              (answers.loop.ops ++ [.complete answers.completed])
          result := (perform .complete answers.completed).result }) := by
  intro upload key
  have unfolded : upload =
      (perform (.putMultipart key) answers.created >>= fun _ =>
        Script.lift (if answers.opened then .ok () else .error .io) >>=
          fun _ => answers.loop >>= fun _ =>
            perform .complete answers.completed) := rfl
  cases created : answers.created with
  | false =>
      left
      rw [unfolded, created]
      exact ⟨rfl, rfl⟩
  | true =>
      right
      cases opened : answers.opened with
      | false =>
          left
          rw [unfolded, created, opened]
          exact ⟨rfl, rfl⟩
      | true =>
          right
          have entered : upload =
              (Script.emit (.putMultipart key true) >>= fun _ =>
                answers.loop >>= fun _ =>
                  perform .complete answers.completed) := by
            rw [unfolded, created, opened]
            rfl
          rw [entered, Script.emit_bind]
          cases ended : answers.loop.result with
          | error error =>
              left
              rw [Script.bind_of_error ended]
              exact ⟨error, rfl, rfl⟩
          | ok =>
              right
              rw [Script.bind_of_ok ended]
              exact ⟨rfl, rfl⟩

variable {encodePart client level minTxid maxTxid answers}

theorem uploaded_isPrefix {parts : List Bytes}
    (sends : Sends parts answers.loop) :
    (putLtxMultipart encodePart client level minTxid maxTxid
      answers).ops.filterMap UploadOp.part? <+: parts := by
  have sent := sends.parts_isPrefix
  rcases putLtxMultipart_cases encodePart client level minTxid maxTxid answers
    with ⟨_, run⟩ | ⟨_, run⟩ | ⟨error, _, run⟩ | ⟨_, run⟩
  · rw [run]
    exact List.nil_prefix
  · rw [run]
    exact List.nil_prefix
  · rw [run]
    exact sent
  · rw [run]
    have only :
        (answers.loop.ops ++ [UploadOp.complete answers.completed]).filterMap
            UploadOp.part? =
          answers.loop.ops.filterMap UploadOp.part? := by
      rw [List.filterMap_append]
      exact List.append_nil _
    rw [← only] at sent
    exact sent

/-- An upload is completed behind all of its parts. -/
theorem ops_of_complete {parts : List Bytes}
    (sends : Sends parts answers.loop) {ok : Bool}
    (reached : UploadOp.complete ok ∈
      (putLtxMultipart encodePart client level minTxid maxTxid answers).ops) :
    (putLtxMultipart encodePart client level minTxid maxTxid answers).ops =
      .putMultipart (client.ltxKey encodePart level minTxid maxTxid) true ::
        (parts.map .stored ++ [.complete ok]) := by
  rcases putLtxMultipart_cases encodePart client level minTxid maxTxid answers
    with ⟨_, run⟩ | ⟨_, run⟩ | ⟨error, _, run⟩ | ⟨ended, run⟩
  · rw [run] at reached
    simp at reached
  · rw [run] at reached
    simp at reached
  · rw [run] at reached
    simp [sends.complete_notMem] at reached
  · rw [run] at reached ⊢
    have same : ok = answers.completed := by
      simpa [sends.complete_notMem] using reached
    rw [sends.ops_of_ok ended, same]

theorem complete_of_steady (steady : answers.Steady) :
    UploadOp.complete answers.completed ∈
      (putLtxMultipart encodePart client level minTxid maxTxid
        answers).ops := by
  have finished : answers.loop.result = .ok () :=
    sendParts_ok steady.readable steady.stored _ _ _
  rcases putLtxMultipart_cases encodePart client level minTxid maxTxid answers
    with ⟨refused, _⟩ | ⟨missing, _⟩ | ⟨error, failed, _⟩ | ⟨_, run⟩
  · rw [steady.created] at refused
    cases refused
  · rw [steady.opened] at missing
    cases missing
  · rw [finished] at failed
    cases failed
  · rw [run]
    simp

/-- Success is reported for a completed upload only. -/
theorem complete_of_ok
    (succeeded :
      (putLtxMultipart encodePart client level minTxid maxTxid
        answers).result = .ok ()) :
    UploadOp.complete true ∈
      (putLtxMultipart encodePart client level minTxid maxTxid
        answers).ops := by
  rcases putLtxMultipart_cases encodePart client level minTxid maxTxid answers
    with ⟨_, run⟩ | ⟨_, run⟩ | ⟨error, _, run⟩ | ⟨_, run⟩
  · rw [run] at succeeded
    cases succeeded
  · rw [run] at succeeded
    cases succeeded
  · rw [run] at succeeded
    cases succeeded
  · rw [run] at succeeded ⊢
    cases completed : answers.completed with
    | false =>
        rw [completed] at succeeded
        cases succeeded
    | true => simp

variable (encodePart client level minTxid maxTxid answers)

theorem putLtxMultipart_sends_pieces :
    let upload :=
      putLtxMultipart encodePart client level minTxid maxTxid answers
    let key := client.ltxKey encodePart level minTxid maxTxid
    ∃ parts : List Bytes,
      (parts.flatten = content ∧ (∀ part ∈ parts, part ≠ []) ∧
        (∀ part ∈ parts.dropLast, part.length = multipartChunk) ∧
        parts.length =
          (content.length + multipartChunk - 1) / multipartChunk) ∧
      upload.ops.filterMap UploadOp.part? <+: parts ∧
      (∀ ok, .complete ok ∈ upload.ops →
        upload.ops =
          .putMultipart key true :: (parts.map .stored ++ [.complete ok])) ∧
      (upload.result = .ok () → .complete true ∈ upload.ops) ∧
      (answers.Steady → .complete answers.completed ∈ upload.ops) := by
  intro upload key
  obtain ⟨parts, cut, sends⟩ := answers.exists_cut
  refine ⟨parts, ⟨cut.flatten, cut.ne_nil multipartChunk_pos,
    cut.length_of_mem_dropLast, cut.length_parts multipartChunk_pos⟩, ?_⟩
  constructor
  · exact uploaded_isPrefix sends
  constructor
  · intro ok reached
    exact ops_of_complete sends reached
  constructor
  · exact complete_of_ok
  · exact complete_of_steady

end Uploading

/-- A file that is read one byte at a time, and a store that takes all. -/
def byByte (content : Bytes) : Answers content where
  created := true
  opened := true
  reads := fun _ position room =>
    some
      { value := min 1 (min room (content.length - position))
        fits := by omega
        there := by omega
        progress := by omega }
  stored := fun _ => true
  completed := true

theorem byByte_steady (content : Bytes) : (byByte content).Steady where
  created := rfl
  opened := rfl
  readable := fun _ _ _ => rfl
  stored := fun _ => rfl

/-- A full chunk and three bytes more. -/
theorem putLtxMultipart_two_parts :
    ∃ first last : Bytes,
      first.length = multipartChunk ∧ last.length = 3 ∧
        first ++ last = List.replicate (multipartChunk + 3) 7 ∧
        (putLtxMultipart id ⟨[]⟩ 0 1 1
          (byByte (List.replicate (multipartChunk + 3) 7))).ops =
          [.putMultipart (ReplicaClient.ltxKey id ⟨[]⟩ 0 1 1) true,
            .putPart first true, .putPart last true, .complete true] := by
  obtain ⟨parts, ⟨flat, _, full, count⟩, _, whole, _, completes⟩ :=
    putLtxMultipart_sends_pieces id ⟨[]⟩ 0 1 1
      (byByte (List.replicate (multipartChunk + 3) 7))
  have sent := whole true (completes (byByte_steady _))
  have two : parts.length = 2 := by
    rw [count, List.length_replicate]
    simp [multipartChunk]
  obtain ⟨first, last, rfl⟩ := List.length_eq_two.mp two
  have chunk : first.length = multipartChunk := full first List.mem_cons_self
  have joined : first ++ last = List.replicate (multipartChunk + 3) 7 := by
    rw [← flat]
    simp
  have length := congrArg List.length joined
  rw [List.length_append, List.length_replicate] at length
  exact ⟨first, last, chunk, by omega, joined, sent⟩

end Storage

end Literstream
