import FlashHost.Proofs.Device.Script
import FlashHost.Proofs.Progress.Phase
import FlashHost.Proofs.Protocol.Invariant
import FlashHost.Proofs.Protocol.Reply
import FlashHost.Proofs.Wire.Packet

/-!
# Information in between

A device may give information at any point of a conversation. The user is told of it, and
nothing else comes out differently.
-/

set_option autoImplicit false

namespace FlashHost

def infoPacket (text : ByteArray) : ByteArray :=
  "INFO".toUTF8 ++ text

/-- The second list is the first one with packets of information put in anywhere. -/
inductive Inserted : List ReadAnswer → List ReadAnswer → Prop where
  | nil : Inserted [] []
  | keep {plain full} (answer) : Inserted plain full → Inserted (answer :: plain) (answer :: full)
  | info {plain full text} :
      (infoPacket text).size ≤ 64 → Inserted plain full →
      Inserted plain (.packet (infoPacket text) :: full)

def ReadAnswer.info? : ReadAnswer → Option String
  | .packet data =>
    match Response.parse (data.extract 0 64) with
    | .ok (.info text) => some text
    | _ => none
  | .fault _ => none

def informed (events : List Event) : List String :=
  (reports events).filterMap fun
    | .info text => some text
    | _ => none

/-- The writes and all reports but information. -/
def lasting (events : List Event) : List Event :=
  events.filter fun
    | .written _ _ => true
    | .progress (.info _) => false
    | .progress _ => true
    | _ => false

@[simp] theorem informed_append (earlier later : List Event) :
    informed (earlier ++ later) = informed earlier ++ informed later := by
  simp [informed]

@[simp] theorem lasting_append (earlier later : List Event) :
    lasting (earlier ++ later) = lasting earlier ++ lasting later :=
  List.filter_append ..

/-- A run over the answers of a script and a run over these answers with information put in:
they end alike and do the same, and whatever information they use up is told. -/
structure Agree {α : Type} (answers more : List ReadAnswer) (plain full : Outcome α × Script) :
    Prop where
  result : full.1.result = plain.1.result
  lasting : lasting full.1.events = lasting plain.1.events
  writes : full.2.writes = plain.2.writes
  reads : ∃ used others, answers = used ++ plain.2.reads ∧ more = others ++ full.2.reads ∧
    Inserted used others ∧ Inserted plain.2.reads full.2.reads ∧
    informed plain.1.events = used.filterMap ReadAnswer.info? ∧
    informed full.1.events = others.filterMap ReadAnswer.info?

def Session.Transparent {α : Type} (session : Session Script α) : Prop :=
  ∀ writes {answers more}, Inserted answers more →
    Agree answers more (session ⟨writes, answers⟩) (session ⟨writes, more⟩)

theorem Inserted.append {plain full others more : List ReadAnswer} (first : Inserted plain full)
    (second : Inserted others more) : Inserted (plain ++ others) (full ++ more) := by
  induction first with
  | nil => exact second
  | keep answer _ ih => exact .keep answer ih
  | info short _ ih => exact .info short ih

theorem Agree.unread {α : Type} {result : Except Error α} {events : List Event}
    {writes : List WriteAnswer} {answers more : List ReadAnswer} (inserted : Inserted answers more)
    (silent : informed events = []) :
    Agree answers more (⟨result, events⟩, ⟨writes, answers⟩) (⟨result, events⟩, ⟨writes, more⟩)
    where
  result := rfl
  lasting := rfl
  writes := rfl
  reads := ⟨[], [], rfl, rfl, .nil, inserted, silent, silent⟩

theorem Agree.read {α : Type} {result : Except Error α} {events : List Event}
    {writes : List WriteAnswer} {answer : ReadAnswer} {answers more : List ReadAnswer}
    (inserted : Inserted answers more)
    (told : informed events = [answer].filterMap ReadAnswer.info?) :
    Agree (answer :: answers) (answer :: more) (⟨result, events⟩, ⟨writes, answers⟩)
      (⟨result, events⟩, ⟨writes, more⟩) where
  result := rfl
  lasting := rfl
  writes := rfl
  reads := ⟨[answer], [answer], rfl, rfl, .keep answer .nil, inserted, told, told⟩

theorem agree_after {α : Type} {answers more used others : List ReadAnswer}
    {plain full : Outcome α × Script} {events told : List Event}
    (later : Agree answers more plain full) (inserted : Inserted used others)
    (same : lasting told = lasting events)
    (plainly : informed events = used.filterMap ReadAnswer.info?)
    (fully : informed told = others.filterMap ReadAnswer.info?) :
    Agree (used ++ answers) (others ++ more) (plain.1.after events, plain.2)
      (full.1.after told, full.2) where
  result := later.result
  lasting := by
    simp [Outcome.after, same, later.lasting]
  writes := later.writes
  reads := by
    obtain ⟨usedLater, othersLater, rfl, rfl, inserts, left, plainlyLater, fullyLater⟩ :=
      later.reads
    refine ⟨used ++ usedLater, others ++ othersLater, by simp, by simp, inserted.append inserts,
      left, ?_, ?_⟩
    · simp [Outcome.after, plainly, plainlyLater]
    · simp [Outcome.after, fully, fullyLater]

private theorem extract_of_size_le {bytes : ByteArray} {size : Nat} (short : bytes.size ≤ size) :
    bytes.extract 0 size = bytes := by
  apply ByteArray.ext
  rw [ByteArray.data_extract]
  exact Array.extract_eq_self_of_le short

namespace Session

variable {α β : Type}

theorem Transparent.bind {first : Session Script α} {next : α → Session Script β}
    (head : first.Transparent) (tail : ∀ value, (next value).Transparent) :
    (first >>= next).Transparent := by
  intro writes answers more inserted
  have agreed := head writes inserted
  rcases ran : first ⟨writes, answers⟩ with ⟨⟨result, events⟩, ⟨rest, left⟩⟩
  rcases reran : first ⟨writes, more⟩ with ⟨⟨again, told⟩, ⟨restToo, leftToo⟩⟩
  rw [ran, reran] at agreed
  obtain ⟨same, lasts, kept, used, others, rfl, rfl, inserts, remaining, plainly, fully⟩ := agreed
  obtain rfl : again = result := same
  obtain rfl : restToo = rest := kept
  cases again with
  | error error =>
      rw [bind_error ran, bind_error reran]
      exact ⟨rfl, lasts, rfl, used, others, rfl, rfl, inserts, remaining, plainly, fully⟩
  | ok value =>
      rw [bind_ok ran, bind_ok reran]
      exact agree_after (tail value restToo remaining) inserts lasts plainly fully

end Session

private theorem parse_infoPacket (text : ByteArray) :
    Response.parse (infoPacket text) = .ok (.info (textOfBytes text)) :=
  Response.parse_text .info text

namespace Protocol

open Session

variable {writes : List WriteAnswer} {answers more : List ReadAnswer} {buffer other : ByteArray}

theorem readReplyInto_exhausted (writes : List WriteAnswer) (buffer : ByteArray) :
    readReplyInto Script.transport buffer ⟨writes, []⟩ =
      (⟨.error (.transport (.other "no response")), [.read (.error (.other "no response"))]⟩,
        ⟨writes, []⟩) :=
  readReplyInto_of_error rfl

theorem readReplyInto_fault (writes : List WriteAnswer) (answers : List ReadAnswer)
    (buffer : ByteArray) (text : String) :
    readReplyInto Script.transport buffer ⟨writes, .fault text :: answers⟩ =
      (⟨.error (.transport (.other text)), [.read (.error (.other text))]⟩, ⟨writes, answers⟩) :=
  readReplyInto_of_error rfl

/-- A packet is taken as it comes through a buffer of the usual size, whatever was in it. -/
theorem readReplyInto_packet (writes : List WriteAnswer) (answers : List ReadAnswer)
    (sized : buffer.size = maxPacketSize) (data : ByteArray) :
    ∃ filled : ByteArray, filled.size = maxPacketSize ∧
      readReplyInto Script.transport buffer ⟨writes, .packet data :: answers⟩ =
        replyOf Script.transport (data.extract 0 64) filled [.read (.ok (data.extract 0 64))]
          ⟨writes, answers⟩ := by
  have packet := extract_receive data buffer
  have kept := size_receive data buffer
  have read : Session.read Script.transport buffer ⟨writes, .packet data :: answers⟩ =
      (⟨.ok (receive data buffer),
        [.read (.ok ((receive data buffer).2.extract 0 (receive data buffer).1))]⟩,
        ⟨writes, answers⟩) := rfl
  generalize receive data buffer = received at packet kept read
  rw [sized] at packet kept
  refine ⟨received.2, kept, ?_⟩
  rw [readReplyInto_of_read read, packet]
  rfl

private theorem agree_readReplyInto (writes : List WriteAnswer) (inserted : Inserted answers more)
    (sized : buffer.size = maxPacketSize) (sizedToo : other.size = maxPacketSize) :
    Agree answers more (readReplyInto Script.transport buffer ⟨writes, answers⟩)
      (readReplyInto Script.transport other ⟨writes, more⟩) := by
  induction inserted generalizing buffer other with
  | nil =>
      rw [readReplyInto_exhausted, readReplyInto_exhausted]
      exact .unread .nil rfl
  | @keep plain full answer inserted ih =>
      cases answer with
      | fault text =>
          rw [readReplyInto_fault, readReplyInto_fault]
          exact .read inserted rfl
      | packet data =>
          obtain ⟨filled, kept, same⟩ := readReplyInto_packet writes plain sized data
          obtain ⟨filledToo, keptToo, sameToo⟩ := readReplyInto_packet writes full sizedToo data
          rw [same, sameToo, replyOf, replyOf]
          cases parsed : Response.parse (data.extract 0 64) with
          | error fault => exact .read inserted (by simp [ReadAnswer.info?, parsed]; rfl)
          | ok response =>
              cases response with
              | info text =>
                  have told : [text] = [ReadAnswer.packet data].filterMap ReadAnswer.info? := by
                    simp [ReadAnswer.info?, parsed]
                  exact agree_after (ih kept keptToo) (.keep (.packet data) .nil) rfl told told
              | _ => exact .read inserted (by simp [ReadAnswer.info?, parsed]; rfl)
  | @info plain full text short inserted ih =>
      obtain ⟨filled, kept, same⟩ := readReplyInto_packet writes full sizedToo (infoPacket text)
      have whole := extract_of_size_le short
      have parsed := parse_infoPacket text
      let events : List Event := [.read (.ok (infoPacket text)),
        .noted (.received (.info (textOfBytes text))), .progress (.info (textOfBytes text))]
      have unchanged : lasting events = lasting [] := rfl
      have untold : informed [] = [].filterMap ReadAnswer.info? := rfl
      have told : informed events =
          [ReadAnswer.packet (infoPacket text)].filterMap ReadAnswer.info? := by
        simp [ReadAnswer.info?, whole, parsed]
        rfl
      rw [same, replyOf, whole, parsed]
      exact agree_after (ih sized kept) (.info short .nil) unchanged untold told

private theorem transparent_readReply : (readReply Script.transport).Transparent :=
  fun writes _ _ inserted => agree_readReplyInto writes inserted rfl rfl

private theorem transparent_write (data : ByteArray) :
    (Session.write Script.transport data).Transparent := by
  intro writes answers more inserted
  cases writes with
  | nil => exact .unread inserted rfl
  | cons answer writes => exact .unread inserted rfl

private theorem informed_report {report : Progress} (other : ∀ text, report ≠ .info text) :
    informed [.progress report] = [] := by
  cases report with
  | info text => exact absurd rfl (other text)
  | _ => rfl

theorem transparent_report {report : Progress} (other : ∀ text, report ≠ .info text) :
    (Session.report report).Transparent :=
  fun _ _ _ inserted => .unread inserted (informed_report other)

private theorem transparent_attempt {α : Type} {session : Session Script α}
    (transparent : session.Transparent) : session.attempt.Transparent := by
  intro writes answers more inserted
  obtain ⟨result, lasts, kept, reads⟩ := transparent writes inserted
  exact ⟨congrArg Except.ok result, lasts, kept, reads⟩

private theorem transparent_invariant :
    ExecutionInvariant Script.transport fun _ session => session.Transparent where
  pure _ _ _ _ inserted := .unread inserted rfl
  fail _ _ _ _ inserted := .unread inserted rfl
  note _ _ _ _ inserted := .unread inserted rfl
  transfer report inside := transparent_report (by rintro text rfl; exact inside)
  write := transparent_write
  readReply := transparent_readReply
  bind := Transparent.bind
  report _ := transparent_report
  attempt := transparent_attempt

/-- Packets of information that are put in anywhere change neither the result of an execution
nor what is written and reported, apart from the information. Of that, the user is told all
that was used up, in the order of the script. -/
theorem agree_execute (queue : Queue) (writes : List WriteAnswer) {answers more : List ReadAnswer}
    (inserted : Inserted answers more) :
    Agree answers more (execute Script.transport queue ⟨writes, answers⟩)
      (execute Script.transport queue ⟨writes, more⟩) :=
  transparent_invariant.execute queue writes inserted

/-- A device that gives information before and after the invitation, and is then lost. -/
theorem agree_flash_interrupted :
    let answers : List ReadAnswer := [.packet "DATA00000002".toUTF8, .fault "gone"]
    let more : List ReadAnswer :=
      [.packet "INFOready".toUTF8, .packet "DATA00000002".toUTF8, .packet "INFObusy".toUTF8,
        .packet "INFO".toUTF8, .fault "gone", .packet "INFOlate".toUTF8]
    Inserted answers more ∧
      Agree answers more
        (execute Script.transport ⟨#[.flash "boot" ⟨#[1, 2]⟩]⟩ ⟨[.all, .count 2], answers⟩)
        (execute Script.transport ⟨#[.flash "boot" ⟨#[1, 2]⟩]⟩ ⟨[.all, .count 2], more⟩) := by
  intro answers more
  have late : Inserted [] [.packet "INFOlate".toUTF8] :=
    @Inserted.info [] [] "late".toUTF8 (by decide) .nil
  have lost : Inserted [.fault "gone"]
      [.packet "INFObusy".toUTF8, .packet "INFO".toUTF8, .fault "gone",
        .packet "INFOlate".toUTF8] :=
    @Inserted.info _ _ "busy".toUTF8 (by decide)
      (@Inserted.info _ _ "".toUTF8 (by decide) (.keep _ late))
  have inserted : Inserted answers more :=
    @Inserted.info _ _ "ready".toUTF8 (by decide) (.keep _ lost)
  exact ⟨inserted, agree_execute _ _ inserted⟩

end Protocol

end FlashHost
