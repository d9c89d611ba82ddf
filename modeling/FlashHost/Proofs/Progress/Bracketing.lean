import FlashHost.Proofs.Progress.Phase
import FlashHost.Proofs.Protocol.Reply
import FlashHost.Proofs.Protocol.Session
import FlashHost.Protocol.Execution

/-!
# Reports of an execution

Every execution reports its steps one at a time, each with its beginning and its end, whatever
the device does. Each session of the protocol leads from one phase to another, and where it
fails, to one in which the failure can be reported.
-/

set_option autoImplicit false

namespace FlashHost

/-- The reports that open a step and that close it in success. -/
def milestones (events : List Event) : List Progress :=
  (reports events).filter fun
    | .begin _ => true
    | .okay => true
    | _ => false

def Operation.steps : Operation → List String
  | .flash partition image =>
    [Protocol.sendingText partition image.size, "writing '" ++ partition ++ "'"]
  | .erase partition => ["erasing '" ++ partition ++ "'"]
  | .display _ _ => []
  | .notice _ => []
  | .command line message => [if message = "" then line else message]
  | .reboot => ["rebooting"]
  | .rebootBootloader => ["rebooting into bootloader"]
  | .download tag payload => [Protocol.sendingText tag payload.size]

def succeeded (steps : List String) : List Progress :=
  steps.flatMap fun description => [.begin description, .okay]

structure Outcome.Bracketed (outcome : Outcome Unit) (operations : List Operation) : Prop where
  /-- The reports stand in the order that the phases allow, and go on to the end. -/
  phases : Phase.outside.follow outcome.events = some (.ending outcome.result.isOk)
  /-- A step is closed before another one begins, and before anything else is reported than
  what belongs to the step. -/
  closed : ∀ earlier description later,
    reports outcome.events = earlier ++ .begin description :: later → Closed later
  /-- A transfer is reported as done if and only if every byte was taken. -/
  delivered : ∀ earlier size later,
    outcome.events = earlier ++ .progress (.transferStarted size) :: later →
    Delivered size 0 later
  finished : outcome.result = .ok () ↔
    ∃ earlier, reports outcome.events = earlier ++ [.finished] ∧ .finished ∉ earlier
  failed : (∃ error, outcome.result = .error error) ↔
    ∃ earlier reason, reports outcome.events = earlier ++ [.failed reason] ∧
      ∀ other, .failed other ∉ earlier
  /-- After a success, all steps of the operations were reported in their order, and none of
  them as failed. -/
  steps : outcome.result = .ok () →
    (∀ reason, .failed reason ∉ reports outcome.events) ∧
      milestones outcome.events = succeeded (operations.flatMap Operation.steps)

namespace Phase

def MayFail (phase : Phase) : Prop :=
  ∀ reason, phase.report (.failed reason) = some .failed

/-- Replies may be read, and information reported. -/
inductive Steady : Phase → Prop where
  | outside : Steady .outside
  | inside {sent} : Steady (.inside sent)

theorem Steady.mayFail {phase : Phase} (steady : phase.Steady) : phase.MayFail := by
  cases steady <;> exact fun _ => rfl

theorem Steady.pass {phase : Phase} (steady : phase.Steady) (count : Nat) :
    phase.pass count = phase := by
  cases steady <;> rfl

theorem Steady.info {phase : Phase} (steady : phase.Steady) (text : String) :
    phase.report (.info text) = some phase := by
  cases steady <;> rfl

theorem Steady.follow_silent {phase : Phase} (steady : phase.Steady) {events : List Event}
    (silent : reports events = []) : phase.follow events = some phase := by
  rw [Phase.follow_silent silent, steady.pass]

end Phase

/-- An outcome takes its phase to another one and reports the given steps, or it fails and takes
its phase to one of those that count as broken. -/
def Outcome.Leads {α : Type} (outcome : Outcome α) (start : Phase) (steps : List Progress)
    (done : Phase) (broken : Phase → Prop) : Prop :=
  match outcome.result with
  | .ok _ => start.follow outcome.events = some done ∧ milestones outcome.events = steps
  | .error _ => ∃ phase, start.follow outcome.events = some phase ∧ broken phase

def Session.Leads {σ α : Type} (session : Session σ α) (start : Phase) (steps : List Progress)
    (done : Phase) (broken : Phase → Prop) : Prop :=
  ∀ device, (session device).1.Leads start steps done broken

theorem milestones_append (earlier later : List Event) :
    milestones (earlier ++ later) = milestones earlier ++ milestones later := by
  simp [milestones]

theorem milestones_of_silent {events : List Event} (silent : reports events = []) :
    milestones events = [] := by
  rw [milestones, silent]
  rfl

theorem Outcome.Leads.after {α : Type} {outcome : Outcome α} {start middle done : Phase}
    {steps : List Progress} {broken : Phase → Prop} {events : List Event}
    (led : outcome.Leads middle steps done broken) (followed : start.follow events = some middle) :
    (outcome.after events).Leads start (milestones events ++ steps) done broken := by
  rcases outcome with ⟨result, others⟩
  have both : start.follow (events ++ others) = middle.follow others := by
    rw [Phase.follow_append, followed]
    rfl
  cases result with
  | ok value =>
      obtain ⟨reached, reported⟩ := led
      exact ⟨both.trans reached, by rw [Outcome.after, milestones_append, reported]⟩
  | error error =>
      obtain ⟨phase, reached, stopped⟩ := led
      exact ⟨phase, both.trans reached, stopped⟩

theorem Outcome.Leads.after_silence {α : Type} {outcome : Outcome α} {start done : Phase}
    {steps : List Progress} {broken : Phase → Prop} {events : List Event}
    (silent : reports events = [])
    (led : outcome.Leads (start.pass (taken events)) steps done broken) :
    (outcome.after events).Leads start steps done broken := by
  simpa [milestones_of_silent silent] using led.after (Phase.follow_silent silent start)

namespace Session

variable {σ α β : Type} {start middle done : Phase} {steps others : List Progress}
  {broken : Phase → Prop}

theorem leads_pure (value : α) : (pure value : Session σ α).Leads start [] start broken :=
  fun _ => ⟨rfl, rfl⟩

theorem leads_fail (error : Error) (stopped : broken start) :
    (fail error : Session σ α).Leads start steps done broken :=
  fun _ => ⟨start, rfl, stopped⟩

theorem leads_note (text : Note) : (note text : Session σ Unit).Leads start [] start broken :=
  fun _ => ⟨by cases start <;> rfl, rfl⟩

theorem leads_report {report : Progress} (may : start.report report = some done) :
    (Session.report report : Session σ Unit).Leads start (milestones [.progress report]) done
      broken :=
  fun _ => ⟨(Phase.follow_report rfl []).trans (by rw [may]; rfl), rfl⟩

theorem Leads.bind {first : Session σ α} {next : α → Session σ β}
    (head : first.Leads start steps middle broken)
    (tail : ∀ value, (next value).Leads middle others done broken) :
    (first >>= next).Leads start (steps ++ others) done broken := by
  intro device
  have led := head device
  rcases ran : first device with ⟨⟨result, events⟩, after⟩
  rw [ran] at led
  cases result with
  | error error =>
      rw [bind_error ran]
      exact led
  | ok value =>
      obtain ⟨followed, rfl⟩ := led
      rw [bind_ok ran]
      exact (tail value after).after followed

/-- A session whose error is caught, reported and raised again ends the reports if it fails. -/
theorem Leads.attempt {session : Session σ α} {next : Except Error α → Session σ β}
    (led : session.Leads start steps middle Phase.MayFail)
    (right : ∀ value, (next (.ok value)).Leads middle others done (· = .failed))
    (wrong : ∀ error, ∃ reason failure,
      next (.error error) = do report (.failed reason); fail failure) :
    (session.attempt >>= next).Leads start (steps ++ others) done (· = .failed) := by
  intro device
  have held := led device
  rcases ran : session device with ⟨⟨result, events⟩, after⟩
  rw [ran] at held
  rw [bind_ok (attempt_of_run ran)]
  cases result with
  | ok value =>
      obtain ⟨followed, rfl⟩ := held
      exact (right value after).after followed
  | error error =>
      obtain ⟨phase, followed, may⟩ := held
      obtain ⟨reason, failure, same⟩ := wrong error
      have told : start.follow (events ++ [.progress (.failed reason)]) = some .failed := by
        rw [Phase.follow_append, followed, Option.bind_some, Phase.follow_report rfl, may reason]
        rfl
      rw [same]
      exact ⟨.failed, told, rfl⟩

theorem write_silent (transport : Transport σ) (data : ByteArray) (device : σ) :
    ∃ outcome events, write transport data device =
        (⟨outcome.mapError .transport, events⟩, (transport.write data device).device) ∧
      reports events = [] ∧ taken events = Event.taken (.written data outcome) := by
  obtain ⟨silent, still⟩ := transferred_silent (transport.write data device).transfers
  refine ⟨_, _, rfl, ?_, ?_⟩
  · rw [reports_append, silent]
    rfl
  · simp [still]

/-- A write moves a transfer on by all of its bytes or by none. -/
theorem leads_write (transport : Transport σ) (data : ByteArray) {next : Nat → Session σ α}
    (whole : (next data.size).Leads (start.pass data.size) steps done broken)
    (short : ∀ count, count ≠ data.size → (next count).Leads start steps done broken)
    (lost : broken start) : (write transport data >>= next).Leads start steps done broken := by
  intro device
  obtain ⟨outcome, events, ran, silent, moved⟩ := write_silent transport data device
  have followed := Phase.follow_silent silent start
  cases outcome with
  | error fault =>
      have none : Event.taken (.written data (.error fault)) = 0 := rfl
      rw [moved, none, Phase.pass_zero] at followed
      rw [bind_error ran]
      exact ⟨start, followed, lost⟩
  | ok count =>
      rw [bind_ok ran]
      refine .after_silence silent ?_
      rw [moved, Event.taken]
      by_cases full : count = data.size
      · rw [if_pos full, full]
        exact whole _
      · rw [if_neg full, Phase.pass_zero]
        exact short count full _

end Session

namespace Protocol

open Session

variable {σ : Type} {phase : Phase}

theorem read_silent {transport : Transport σ} {buffer : ByteArray} {device next : σ}
    {result : Except Error (Nat × ByteArray)} {events : List Event}
    (ran : Session.read transport buffer device = (⟨result, events⟩, next)) :
    reports events = [] := by
  obtain ⟨silent, -⟩ := transferred_silent (transport.read buffer device).transfers
  simp only [Session.read, Prod.mk.injEq, Outcome.mk.injEq] at ran
  obtain ⟨⟨-, rfl⟩, -⟩ := ran
  rw [reports_append, silent]
  rfl

theorem received_silent {transport : Transport σ} {buffer : ByteArray} {device next : σ}
    {value : Nat × ByteArray} {events : List Event}
    (received : Session.read transport buffer device = (⟨.ok value, events⟩, next)) (note : Note) :
    reports (events ++ [.noted note]) = [] := by
  rw [reports_append, read_silent received]
  rfl

private theorem leads_readReplyInto (steady : phase.Steady) (transport : Transport σ)
    (buffer : ByteArray) :
    (readReplyInto transport buffer).Leads phase [] phase Phase.MayFail := by
  intro device
  apply readReplyInto_induction fun _ _ run => run.1.Leads phase [] phase Phase.MayFail
  case unread =>
    intro buffer device error events next failed
    exact ⟨phase, steady.follow_silent (read_silent failed), steady.mayFail⟩
  case undecodable =>
    intro buffer device size filled events next fault received parsed
    exact ⟨phase, steady.follow_silent (read_silent received), steady.mayFail⟩
  case refused =>
    intro buffer device size filled events next reason received parsed
    exact ⟨phase, steady.follow_silent (received_silent received _), steady.mayFail⟩
  case replied =>
    intro buffer device size filled events next reply received parsed
    have silent := received_silent received (.received reply.response)
    exact ⟨steady.follow_silent silent, milestones_of_silent silent⟩
  case informed =>
    intro buffer device size filled events next text rest last received parsed led
    let noted := events ++ [Event.noted (.received (.info text))]
    have silent : reports noted = [] := received_silent received _
    have told : phase.follow (noted ++ [.progress (.info text)]) = some phase := by
      rw [Phase.follow_append, steady.follow_silent silent, Option.bind_some,
        Phase.follow_report rfl, steady.info]
      rfl
    have unmarked : milestones (noted ++ [.progress (.info text)]) = [] := by
      rw [milestones_append, milestones_of_silent silent]
      rfl
    have moved := led.after told
    rwa [unmarked] at moved

theorem leads_readReply (steady : phase.Steady) (transport : Transport σ) :
    (readReply transport).Leads phase [] phase Phase.MayFail :=
  leads_readReplyInto steady transport packetBuffer

theorem leads_sendCommand (steady : phase.Steady) (transport : Transport σ) (line : String) :
    (sendCommand transport line).Leads phase [] phase Phase.MayFail := by
  unfold sendCommand
  split
  · exact leads_fail _ steady.mayFail
  · refine (leads_note _).bind fun _ => leads_write _ _ ?_ (fun count short => ?_) steady.mayFail
    · rw [steady.pass, if_neg (by simp)]
      exact leads_readReply steady transport
    · rw [if_pos (by simpa using short)]
      exact leads_fail _ steady.mayFail

theorem leads_expectOkay (steady : phase.Steady) (transport : Transport σ) (line : String) :
    (expectOkay transport line).Leads phase [] phase Phase.MayFail :=
  (leads_sendCommand steady transport line).bind fun
    | .okay text => leads_pure text
    | .data _ => leads_fail _ steady.mayFail

/-- From one piece to the next, the bytes that were taken are those that were reported. -/
theorem leads_sendPieces (transport : Transport σ) {size : Nat} (positive : 0 < size)
    (payload : ByteArray) (offset : Nat) :
    (sendPieces transport payload.size (min offset payload.size)
      (piecesFrom size payload offset)).Leads
        (.sending payload.size (min offset payload.size) (min offset payload.size)) []
        (.sending payload.size payload.size payload.size) Phase.MayFail := by
  fun_induction piecesFrom size payload offset with
  | case1 offset more ih =>
      have start : min offset payload.size = offset := Nat.min_eq_left (Nat.le_of_lt more.2)
      have length : (payload.extract offset (offset + size)).size = _ := ByteArray.size_extract
      generalize payload.extract offset (offset + size) = piece at length
      have sent : offset + piece.size = min (offset + size) payload.size := by omega
      have mayFail : (Phase.sending payload.size offset offset).MayFail :=
        fun _ => if_pos more.2
      have further : (Phase.sending payload.size (offset + piece.size) offset).report
          (.transferProgress (offset + piece.size)) =
            some (.sending payload.size (offset + piece.size) (offset + piece.size)) :=
        if_pos (by omega)
      rw [start, sendPieces]
      refine leads_write _ _ ?_ (fun count short => ?_) mayFail
      · rw [if_neg (by simp)]
        refine (leads_report further).bind fun _ => ?_
        rw [sent]
        exact ih
      · rw [if_pos short]
        exact leads_fail _ mayFail
  | case2 offset none =>
      have complete : min offset payload.size = payload.size := by omega
      rw [complete]
      exact leads_pure ()

private theorem leads_download (transport : Transport σ) (payload : ByteArray) :
    (download transport payload).Leads (.inside false) [] (.inside true) Phase.MayFail := by
  simp only [download]
  split
  · exact leads_fail _ Phase.Steady.inside.mayFail
  · refine (leads_sendCommand .inside transport _).bind fun
      | .okay _ => leads_fail _ Phase.Steady.inside.mayFail
      | .data accepted => ?_
    dsimp only
    split
    · exact leads_fail _ Phase.Steady.inside.mayFail
    · have complete : (Phase.sending payload.size payload.size payload.size).report .transferDone =
          some (.inside true) := if_pos ⟨rfl, rfl⟩
      have sent := leads_sendPieces transport (by decide : 0 < pieceSize) payload 0
      rw [Nat.zero_min] at sent
      exact (leads_report rfl).bind fun _ =>
        sent.bind fun _ =>
          (leads_report complete).bind fun _ => (leads_readReply .inside transport).bind fun
            | .okay _ => leads_pure ()
            | .data _ => leads_fail _ Phase.Steady.inside.mayFail

theorem leads_step {body : Session σ Unit} {sent : Bool} (description : String)
    (led : body.Leads (.inside false) [] (.inside sent) Phase.MayFail) :
    (step description body).Leads .outside [.begin description, .okay] .outside (· = .failed) :=
  (leads_report rfl).bind fun _ => led.attempt (fun _ => leads_report rfl) fun error =>
    ⟨error.message, error.inStep description, rfl⟩

theorem leads_commandStep (transport : Transport σ) (description line : String) :
    (commandStep transport description line).Leads .outside [.begin description, .okay] .outside
      (· = .failed) :=
  leads_step description ((leads_expectOkay .inside transport line).bind fun _ => leads_pure ())

theorem leads_downloadStep (transport : Transport σ) (name : String) (payload : ByteArray) :
    (downloadStep transport name payload).Leads .outside
      [.begin (sendingText name payload.size), .okay] .outside (· = .failed) :=
  leads_step _ (leads_download transport payload)

theorem leads_showVariable (transport : Transport σ) (name label : String) :
    (showVariable transport name label).Leads .outside [] .outside (· = .failed) :=
  (leads_expectOkay .outside transport _).attempt (fun _ => leads_report rfl) fun error =>
    ⟨_, error.inStep _, rfl⟩

theorem leads_run (transport : Transport σ) (operation : Operation) :
    (run transport operation).Leads .outside (succeeded operation.steps) .outside
      (· = .failed) := by
  cases operation with
  | flash partition image =>
      exact (leads_downloadStep transport _ _).bind fun _ => leads_commandStep transport _ _
  | erase partition => exact leads_commandStep transport _ _
  | display name label => exact leads_showVariable transport _ _
  | notice message => exact leads_report rfl
  | command line message => exact leads_commandStep transport _ _
  | reboot => exact leads_commandStep transport _ _
  | rebootBootloader => exact leads_commandStep transport _ _
  | download tag payload => exact leads_downloadStep transport _ _

private theorem leads_runAll (transport : Transport σ) (operations : List Operation) :
    (runAll transport operations).Leads .outside
      (succeeded (operations.flatMap Operation.steps)) .outside (· = .failed) := by
  induction operations with
  | nil => exact leads_pure ()
  | cons operation operations ih =>
      have steps : succeeded ((operation :: operations).flatMap Operation.steps) =
          succeeded operation.steps ++ succeeded (operations.flatMap Operation.steps) := by
        simp [succeeded]
      rw [steps]
      exact (leads_run transport operation).bind fun _ => ih

theorem leads_execute (transport : Transport σ) (queue : Queue) :
    (execute transport queue).Leads .outside
      (succeeded (queue.toList.flatMap Operation.steps)) .finished (· = .failed) := by
  have led : (execute transport queue).Leads .outside
      (succeeded (queue.toList.flatMap Operation.steps) ++ []) .finished (· = .failed) :=
    (leads_note _).bind fun _ =>
      (leads_runAll transport queue.toList).bind fun _ => leads_report rfl
  rwa [List.append_nil] at led

end Protocol

namespace Outcome.Leads

variable {outcome : Outcome Unit} {steps : List Progress}
  (led : outcome.Leads .outside steps .finished (· = .failed))

include led

theorem phases :
    Phase.outside.follow outcome.events = some (.ending outcome.result.isOk) := by
  rcases outcome with ⟨result, events⟩
  cases result with
  | ok value => exact led.1
  | error error =>
      obtain ⟨phase, followed, rfl⟩ := led
      exact followed

theorem closed {earlier later : List Progress} {description : String}
    (parts : reports outcome.events = earlier ++ .begin description :: later) : Closed later := by
  have followed := led.phases
  obtain ⟨front, back, split, rfl⟩ := reports_split parts
  rw [split] at followed
  obtain ⟨before, after, may, rest⟩ := Phase.follow_split followed
  obtain rfl := Phase.report_begin may
  exact Phase.closed_of_follow rest (Phase.success?_ending _)

theorem delivered {earlier later : List Event} {size : Nat}
    (parts : outcome.events = earlier ++ .progress (.transferStarted size) :: later) :
    Delivered size 0 later := by
  have followed := led.phases
  rw [parts] at followed
  obtain ⟨before, after, may, rest⟩ := Phase.follow_split followed
  obtain rfl := Phase.report_transferStarted may
  exact Phase.delivered_of_follow rest (Phase.success?_ending _)

/-- The last report says how the execution ended, and no report before it does. -/
theorem last_report :
    ∃ earlier report, reports outcome.events = earlier ++ [report] ∧
      report.success? = some outcome.result.isOk ∧ ∀ other ∈ earlier, other.success? = none :=
  Phase.last_report led.phases rfl (Phase.success?_ending _)

theorem isOk_of_last {earlier : List Progress} {report : Progress} {success : Bool}
    (parts : reports outcome.events = earlier ++ [report])
    (told : report.success? = some success) : outcome.result.isOk = success := by
  obtain ⟨front, final, whole, right, -⟩ := led.last_report
  obtain ⟨-, same⟩ := List.append_inj' (whole.symm.trans parts) rfl
  cases same
  exact Option.some.inj (right.symm.trans told)

theorem finished_iff :
    outcome.result = .ok () ↔
      ∃ earlier, reports outcome.events = earlier ++ [.finished] ∧ .finished ∉ earlier := by
  constructor
  · intro done
    obtain ⟨earlier, report, parts, told, others⟩ := led.last_report
    rw [done] at told
    obtain rfl := Progress.success?_eq_true_iff.mp told
    exact ⟨earlier, parts, fun member => nomatch others _ member⟩
  · rintro ⟨earlier, parts, -⟩
    have done := led.isOk_of_last parts rfl
    cases result : outcome.result with
    | ok value => rfl
    | error error => rw [result] at done; cases done

theorem failed_iff :
    (∃ error, outcome.result = .error error) ↔
      ∃ earlier reason, reports outcome.events = earlier ++ [.failed reason] ∧
        ∀ other, .failed other ∉ earlier := by
  constructor
  · rintro ⟨error, failed⟩
    obtain ⟨earlier, report, parts, told, others⟩ := led.last_report
    rw [failed] at told
    obtain ⟨reason, rfl⟩ := Progress.success?_eq_false_iff.mp told
    exact ⟨earlier, reason, parts, fun other member => nomatch others _ member⟩
  · rintro ⟨earlier, reason, parts, -⟩
    have failed := led.isOk_of_last parts rfl
    cases result : outcome.result with
    | ok value => rw [result] at failed; cases failed
    | error error => exact ⟨error, rfl⟩

private theorem steps_of_ok (done : outcome.result = .ok ()) :
    (∀ reason, .failed reason ∉ reports outcome.events) ∧ milestones outcome.events = steps := by
  constructor
  · intro reason member
    obtain ⟨earlier, report, parts, told, others⟩ := led.last_report
    rw [done] at told
    obtain rfl := Progress.success?_eq_true_iff.mp told
    rw [parts] at member
    rcases List.mem_append.mp member with before | final
    · cases others _ before
    · simp at final
  · rw [Outcome.Leads, done] at led
    exact led.2

end Outcome.Leads

/-- Every execution is reported in steps that are begun and closed one after another. -/
theorem Protocol.bracketed_execute {σ : Type} (transport : Transport σ) (queue : Queue)
    (device : σ) :
    (execute transport queue device).1.Bracketed queue.toList := by
  have led := leads_execute transport queue device
  exact
    { phases := led.phases
      closed := fun _ _ _ => led.closed
      delivered := fun _ _ _ => led.delivered
      finished := led.finished_iff
      failed := led.failed_iff
      steps := led.steps_of_ok }

end FlashHost
