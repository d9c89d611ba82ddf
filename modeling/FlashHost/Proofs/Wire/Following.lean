import FlashHost.Proofs.Progress.Bracketing
import FlashHost.Proofs.Protocol.Invariant
import FlashHost.Proofs.Wire.Failure

/-!
# Execution follows the plan

An execution goes through stages, each of which is one round under a description. It ends at
the first stage whose round is aborted, and its error and its last report are that stage's. So
it follows the turns of its rounds, whatever the device does.
-/

set_option autoImplicit false

namespace FlashHost

/-- One round, as it is described to the user. A variable is read without an announcement. -/
inductive Stage where
  | step (description : String) (round : Round)
  | reading (name : String)

namespace Stage

def description : Stage → String
  | .step description _ => description
  | .reading name => "getvar:" ++ name

def round : Stage → Round
  | .step _ round => round
  | .reading name => .command ("getvar:" ++ name)

def turns (stage : Stage) : List Turn :=
  stage.round.turns

def opening : Stage → List Progress
  | .step description _ => [.begin description]
  | .reading _ => []

def complaint : Stage → String → String
  | .step _ _, text => text
  | .reading name, text => "getvar:" ++ name ++ " (" ++ text ++ ")"

end Stage

def Operation.stages : Operation → List Stage
  | .flash partition image =>
    [.step (Protocol.sendingText partition image.size) (.payload image),
      .step ("writing '" ++ partition ++ "'") (.command ("flash:" ++ partition))]
  | .erase partition =>
    [.step ("erasing '" ++ partition ++ "'") (.command ("erase:" ++ partition))]
  | .display name _ => [.reading name]
  | .notice _ => []
  | .command line message => [.step (if message = "" then line else message) (.command line)]
  | .reboot => [.step "rebooting" (.command "reboot")]
  | .rebootBootloader => [.step "rebooting into bootloader" (.command "reboot-bootloader")]
  | .download tag payload =>
    [.step (Protocol.sendingText tag payload.size) (.payload payload)]

def stages (operations : List Operation) : List Stage :=
  operations.flatMap Operation.stages

theorem Operation.map_round_stages (operation : Operation) :
    operation.stages.map Stage.round = operation.rounds := by
  cases operation <;> rfl

theorem map_round_stages (operations : List Operation) :
    (stages operations).map Stage.round = rounds operations := by
  induction operations with
  | nil => rfl
  | cons operation operations ih =>
      rw [stages, List.flatMap_cons, List.map_append, operation.map_round_stages, rounds_cons, ← ih,
        stages]

private theorem flatMap_turns_stages (operations : List Operation) :
    (stages operations).flatMap Stage.turns = (rounds operations).flatMap Round.turns := by
  rw [← map_round_stages, List.flatMap_map]
  rfl

def Progress.IsInterim : Progress → Prop
  | .info _ | .transferStarted _ | .transferProgress _ | .transferDone => True
  | _ => False

/-- The reports end with that of a failure in a stage, and nothing was begun after the stage. -/
def Stage.Reported (stage : Stage) (text : String) (reports : List Progress) : Prop :=
  ∃ front middle, reports = front ++ stage.opening ++ middle ++ [.failed (stage.complaint text)] ∧
    ∀ report ∈ middle, report.IsInterim

/-- The calls go through the rounds of some stages and abort that of the next one. -/
def FailsIn (stages : List Stage) (stage : Stage) (exchanges : List Exchange) (cause : Error) :
    Prop :=
  ∃ earlier later before current,
    stages = earlier ++ stage :: later ∧ exchanges = before ++ current ∧
      Completes (earlier.flatMap Stage.turns) before ∧
      Aborts stage.round stage.turns current cause

/-- An activity goes through these stages, or fails in one of them and says so. -/
def Outcome.Undergoes {α : Type} (outcome : Outcome α) (stages : List Stage) : Prop :=
  match outcome.result with
  | .ok _ => Completes (stages.flatMap Stage.turns) outcome.exchanges
  | .error error => ∃ stage cause,
      FailsIn stages stage outcome.exchanges cause ∧ error = cause.inStep stage.description ∧
        stage.Reported cause.message (reports outcome.events)

def Session.Undergoes {σ α : Type} (session : Session σ α) (stages : List Stage) : Prop :=
  ∀ device, (session device).1.Undergoes stages

def Session.Follows {σ α : Type} (session : Session σ α) (turns : List Turn) : Prop :=
  ∀ device, (session device).1.Follows turns

namespace FailsIn

variable {stages later : List Stage} {stage : Stage} {exchanges : List Exchange} {cause : Error}

theorem extend (failed : FailsIn stages stage exchanges cause) :
    FailsIn (stages ++ later) stage exchanges cause := by
  obtain ⟨earlier, rest, before, current, rfl, calls, ended⟩ := failed
  exact ⟨earlier, rest ++ later, before, current, by simp, calls, ended⟩

theorem after {others : List Exchange} (first : Completes (stages.flatMap Stage.turns) others)
    (second : FailsIn later stage exchanges cause) :
    FailsIn (stages ++ later) stage (others ++ exchanges) cause := by
  obtain ⟨earlier, rest, before, current, rfl, rfl, completed, aborted⟩ := second
  refine ⟨stages ++ earlier, rest, others ++ before, current, by simp, by simp, ?_, aborted⟩
  rw [List.flatMap_append]
  exact first.append completed

theorem aborts (failed : FailsIn stages stage exchanges cause) :
    Aborts stage.round (stages.flatMap Stage.turns) exchanges cause := by
  obtain ⟨earlier, rest, before, current, rfl, rfl, completed, aborted⟩ := failed
  rw [List.flatMap_append, List.flatMap_cons]
  exact (aborted.extend _).after completed

end FailsIn

theorem Stage.Reported.after {stage : Stage} {text : String} {told : List Progress}
    (reported : stage.Reported text told) (earlier : List Progress) :
    stage.Reported text (earlier ++ told) := by
  obtain ⟨front, middle, rfl, interim⟩ := reported
  exact ⟨earlier ++ front, middle, by simp, interim⟩

theorem Outcome.Undergoes.after {α : Type} {outcome : Outcome α} {stages later : List Stage}
    {events : List Event}
    (first : Completes (stages.flatMap Stage.turns) (events.filterMap Event.exchange?))
    (second : outcome.Undergoes later) : (outcome.after events).Undergoes (stages ++ later) := by
  unfold Outcome.Undergoes at second ⊢
  rw [Outcome.result_after, Outcome.exchanges_after]
  cases ended : outcome.result with
  | ok value =>
      rw [ended] at second
      rw [List.flatMap_append]
      exact first.append second
  | error error =>
      rw [ended] at second
      obtain ⟨stage, cause, failed, named, reported⟩ := second
      refine ⟨stage, cause, .after first failed, named, ?_⟩
      rw [Outcome.after, reports_append]
      exact reported.after _

theorem Outcome.Undergoes.follows {α : Type} {outcome : Outcome α} {stages : List Stage}
    (undergone : outcome.Undergoes stages) : outcome.Follows (stages.flatMap Stage.turns) := by
  unfold Outcome.Undergoes at undergone
  unfold Outcome.Follows
  cases ended : outcome.result with
  | ok value =>
      rw [ended] at undergone
      exact undergone
  | error error =>
      rw [ended] at undergone
      obtain ⟨stage, cause, failed, -⟩ := undergone
      exact failed.aborts.breaks

def Session.Interim {σ α : Type} (session : Session σ α) : Prop :=
  ∀ device, ∀ report ∈ reports (session device).1.events, report.IsInterim

namespace Session

variable {σ α β : Type} {stages later : List Stage}

private theorem undergoes_pure (value : α) : (pure value : Session σ α).Undergoes [] :=
  fun _ => Completes.nil

theorem undergoes_report (progress : Progress) : (report progress : Session σ Unit).Undergoes [] :=
  fun _ => Completes.nil

private theorem undergoes_note (text : Note) : (note text : Session σ Unit).Undergoes [] :=
  fun _ => Completes.nil

theorem Undergoes.bind {first : Session σ α} {next : α → Session σ β}
    (head : first.Undergoes stages) (tail : ∀ value, (next value).Undergoes later) :
    (first >>= next).Undergoes (stages ++ later) := by
  intro device
  have undergone := head device
  rcases ran : first device with ⟨⟨result, events⟩, after⟩
  rw [ran] at undergone
  cases result with
  | error error =>
      obtain ⟨stage, cause, failed, told⟩ := undergone
      rw [bind_error ran]
      exact ⟨stage, cause, failed.extend, told⟩
  | ok value =>
      rw [bind_ok ran]
      exact .after undergone (tail value after)

theorem interim_silent {outcome : Outcome α} (silent : reports outcome.events = []) :
    (lift outcome : Session σ α).Interim := by
  intro device report member
  rw [lift, silent] at member
  cases member

theorem Interim.bind {first : Session σ α} {next : α → Session σ β} (head : first.Interim)
    (tail : ∀ value, (next value).Interim) : (first >>= next).Interim := by
  intro device report member
  have own := head device report
  rcases ran : first device with ⟨⟨result, events⟩, after⟩
  rw [ran] at own
  cases result with
  | error error =>
      rw [bind_error ran] at member
      exact own member
  | ok value =>
      rw [bind_ok ran, Outcome.after, reports_append, List.mem_append] at member
      exact member.elim own (tail value after report)

/-- A session whose errors are caught, reported and raised again, with the name of a stage if
they are refusals, makes up this stage. -/
theorem undergoes_stage (stage : Stage) {body : Session σ α} {whole : Session σ Unit}
    (conducted : body.Conducts stage.round stage.turns) (interim : body.Interim)
    (right : ∀ device value events next, body device = (⟨.ok value, events⟩, next) →
      ∃ report, whole device =
        (⟨.ok (), stage.opening.map .progress ++ events ++ [.progress report]⟩, next))
    (wrong : ∀ device error events next, body device = (⟨.error error, events⟩, next) →
      whole device = (⟨.error (error.inStep stage.description),
        stage.opening.map .progress ++ events ++
          [.progress (.failed (stage.complaint error.message))]⟩, next)) :
    whole.Undergoes [stage] := by
  intro device
  have carried := conducted device
  have own := interim device
  rcases ran : body device with ⟨⟨result, events⟩, next⟩
  rw [ran] at carried own
  have opened : (stage.opening.map Event.progress).filterMap Event.exchange? = [] := by
    cases stage <;> rfl
  have told : reports (stage.opening.map Event.progress) = stage.opening := by
    cases stage <;> rfl
  have calls (report : Progress) :
      (stage.opening.map Event.progress ++ events ++ [Event.progress report]).filterMap
        Event.exchange? = events.filterMap Event.exchange? := by
    simp [opened, Event.exchange?]
  cases result with
  | ok value =>
      obtain ⟨report, same⟩ := right device value events next ran
      have completed : Completes stage.turns (events.filterMap Event.exchange?) := carried
      rw [same, Outcome.Undergoes, Outcome.exchanges_mk, calls]
      simpa using completed
  | error error =>
      have aborted : Aborts stage.round stage.turns (events.filterMap Event.exchange?) error :=
        carried
      rw [wrong device error events next ran, Outcome.Undergoes, Outcome.exchanges_mk, calls]
      refine ⟨stage, error, ⟨[], [], [], _, rfl, rfl, .nil, aborted⟩, rfl, [], reports events, ?_,
        own⟩
      rw [reports_append, reports_append, told]
      rfl

end Session

namespace Protocol

open Session

variable {σ : Type}

private theorem interim_readReplyInto (transport : Transport σ) (buffer : ByteArray) :
    (readReplyInto transport buffer).Interim := by
  intro device
  apply readReplyInto_induction fun _ _ run => ∀ report ∈ reports run.1.events, report.IsInterim
  case unread =>
    intro buffer device error events next failed
    rw [read_silent failed]
    exact List.forall_mem_nil _
  case undecodable =>
    intro buffer device size filled events next fault received parsed
    rw [read_silent received]
    exact List.forall_mem_nil _
  case refused =>
    intro buffer device size filled events next reason received parsed
    rw [received_silent received]
    exact List.forall_mem_nil _
  case replied =>
    intro buffer device size filled events next reply received parsed
    rw [received_silent received]
    exact List.forall_mem_nil _
  case informed =>
    intro buffer device size filled events next text rest last received parsed own
    simp only [Outcome.after, reports_append, received_silent received]
    exact List.forall_mem_cons.mpr ⟨trivial, own⟩

theorem interim_invariant (transport : Transport σ) :
    CommandInvariant transport fun _ session => session.Interim where
  pure _ := interim_silent rfl
  fail _ := interim_silent rfl
  note _ := interim_silent rfl
  transfer report inside := by
    intro device
    cases report with
    | transferStarted | transferProgress | transferDone =>
        exact List.forall_mem_singleton.mpr trivial
    | _ => exact inside.elim
  write data := by
    intro device
    obtain ⟨outcome, events, ran, silent, -⟩ := write_silent transport data device
    rw [ran, silent]
    exact List.forall_mem_nil _
  readReply := interim_readReplyInto transport packetBuffer
  bind := Interim.bind

section Runs

variable {body : Session σ Unit} {description name : String} {device next : σ} {error : Error}
  {events : List Event}

theorem step_of_ok (ran : body device = (⟨.ok (), events⟩, next)) :
    step description body device =
      (⟨.ok (), .progress (.begin description) :: (events ++ [.progress .okay])⟩, next) := by
  have begun : report (.begin description) device =
      (⟨.ok (), [.progress (.begin description)]⟩, device) := rfl
  rw [step, bind_ok begun, bind_ok (attempt_of_run ran)]
  rfl

theorem step_of_error (ran : body device = (⟨.error error, events⟩, next)) :
    step description body device =
      (⟨.error (error.inStep description),
        .progress (.begin description) :: (events ++ [.progress (.failed error.message)])⟩,
        next) := by
  have begun : report (.begin description) device =
      (⟨.ok (), [.progress (.begin description)]⟩, device) := rfl
  rw [step, bind_ok begun, bind_ok (attempt_of_run ran)]
  rfl

theorem showVariable_of_ok {transport : Transport σ} {value : String} (label : String)
    (ran : expectOkay transport ("getvar:" ++ name) device = (⟨.ok value, events⟩, next)) :
    showVariable transport name label device =
      (⟨.ok (), events ++ [.progress (.display label value)]⟩, next) :=
  bind_ok (attempt_of_run ran)

theorem showVariable_of_error {transport : Transport σ} (label : String)
    (ran : expectOkay transport ("getvar:" ++ name) device = (⟨.error error, events⟩, next)) :
    showVariable transport name label device =
      (⟨.error (error.inStep ("getvar:" ++ name)),
        events ++ [.progress (.failed ("getvar:" ++ name ++ " (" ++ error.message ++ ")"))]⟩,
        next) :=
  bind_ok (attempt_of_run ran)

end Runs

theorem undergoes_step {body : Session σ Unit} (description : String) {round : Round}
    (conducted : body.Conducts round round.turns) (interim : body.Interim) :
    (step description body).Undergoes [.step description round] := by
  refine undergoes_stage (.step description round) conducted interim ?_ ?_
  · exact fun _ _ _ _ ran => ⟨.okay, step_of_ok ran⟩
  · exact fun _ _ _ _ ran => step_of_error ran

theorem undergoes_commandStep (transport : Transport σ) (description line : String) :
    (commandStep transport description line).Undergoes [.step description (.command line)] :=
  undergoes_step description
    ((conducts_expectOkay transport line).before_silence fun _ => conducts_pure ())
    (.bind ((interim_invariant transport).expectOkay line) fun _ => interim_silent rfl)

theorem undergoes_downloadStep (transport : Transport σ) (name : String) (payload : ByteArray) :
    (downloadStep transport name payload).Undergoes
      [.step (sendingText name payload.size) (.payload payload)] :=
  undergoes_step _ (conducts_download transport payload)
    ((interim_invariant transport).download payload)

private theorem undergoes_showVariable (transport : Transport σ) (name label : String) :
    (showVariable transport name label).Undergoes [.reading name] := by
  refine undergoes_stage (.reading name) (conducts_expectOkay transport ("getvar:" ++ name))
    ((interim_invariant transport).expectOkay _) ?_ ?_
  · exact fun _ value _ _ ran => ⟨.display label value, showVariable_of_ok label ran⟩
  · exact fun _ _ _ _ ran => showVariable_of_error label ran

private theorem undergoes_run (transport : Transport σ) (operation : Operation) :
    (run transport operation).Undergoes operation.stages := by
  cases operation with
  | flash partition image =>
      exact (undergoes_downloadStep transport partition image).bind fun _ =>
        undergoes_commandStep transport _ _
  | erase partition => exact undergoes_commandStep transport _ _
  | display name label => exact undergoes_showVariable transport name label
  | notice message => exact undergoes_report _
  | command line message => exact undergoes_commandStep transport _ line
  | reboot => exact undergoes_commandStep transport _ _
  | rebootBootloader => exact undergoes_commandStep transport _ _
  | download tag payload => exact undergoes_downloadStep transport tag payload

private theorem undergoes_runAll (transport : Transport σ) (operations : List Operation) :
    (runAll transport operations).Undergoes (stages operations) := by
  induction operations with
  | nil => exact undergoes_pure ()
  | cons operation operations ih => exact (undergoes_run transport operation).bind fun _ => ih

/-- The execution of a queue goes through the stages of its operations, in the order of the
queue, or fails in one of them and says so. -/
theorem undergoes_execute (transport : Transport σ) (queue : Queue) :
    (execute transport queue).Undergoes (stages queue.toList) := by
  have ran : (runAll transport queue.toList >>= fun _ => report .finished).Undergoes
      (stages queue.toList ++ []) :=
    (undergoes_runAll transport queue.toList).bind fun _ => undergoes_report _
  rw [List.append_nil] at ran
  exact (undergoes_note _).bind fun _ => ran

/-- The execution of a queue follows the turns of its rounds, in the order of the queue. -/
theorem follows_execute (transport : Transport σ) (queue : Queue) :
    (execute transport queue).Follows ((rounds queue.toList).flatMap Round.turns) := by
  intro device
  rw [← flatMap_turns_stages]
  exact (undergoes_execute transport queue device).follows

end Protocol

end FlashHost
