import FlashHost.Proofs.CommandLine.Layout
import FlashHost.Proofs.Progress.Printing
import FlashHost.Proofs.Wire.Following
import FlashHost.Proofs.Wire.Informing

/-!
# The transcript of an execution

What the user reads of an execution, laid down from the operations and the calls made for them.
Every part of an operation is closed with one line that names it, below the information that
came with its packets, and the last line says how the execution ended.
-/

set_option autoImplicit false

namespace FlashHost

/-- A part of an operation that is closed with a line of its own. -/
inductive Item where
  | step (description : String) (round : Round)
  | reading (name label : String)
  | notice (message : String)

def Operation.items : Operation → List Item
  | .flash partition image =>
    [.step (Protocol.sendingText partition image.size) (.payload image),
      .step ("writing '" ++ partition ++ "'") (.command ("flash:" ++ partition))]
  | .erase partition =>
    [.step ("erasing '" ++ partition ++ "'") (.command ("erase:" ++ partition))]
  | .display name label => [.reading name label]
  | .notice message => [.notice message]
  | .command line message => [.step (if message = "" then line else message) (.command line)]
  | .reboot => [.step "rebooting" (.command "reboot")]
  | .rebootBootloader => [.step "rebooting into bootloader" (.command "reboot-bootloader")]
  | .download tag payload => [.step (Protocol.sendingText tag payload.size) (.payload payload)]

def items (operations : List Operation) : List Item :=
  operations.flatMap Operation.items

def informationLines (exchanges : List Exchange) : List String :=
  (exchanges.filterMap Exchange.information?).map ("(bootloader) " ++ ·)

inductive Item.Prints (elapsed : Duration) : Item → List Exchange → List String → Prop where
  | step {description round exchanges} :
      Completes round.turns exchanges →
      Prints elapsed (.step description round) exchanges
        (informationLines exchanges ++ [description ++ "... OKAY [" ++ elapsed.column ++ "s]"])
  | reading {name label exchanges packet value} :
      Completes (Round.command ("getvar:" ++ name)).turns exchanges →
      exchanges.getLast? = some (.read (.ok packet)) →
      Response.parse packet = .ok (.okay value) →
      Prints elapsed (.reading name label) exchanges
        (informationLines exchanges ++ [label ++ ": " ++ value])
  | notice {message} : Prints elapsed (.notice message) [] [message]

/-- The calls abort the round of an item, which ends with an error and these lines. -/
inductive Item.Fails : Item → List Exchange → Error → List String → Prop where
  | step {description round exchanges cause} :
      Aborts round round.turns exchanges cause →
      Fails (.step description round) exchanges (cause.inStep description)
        (informationLines exchanges ++ [description ++ "... FAILED (" ++ cause.message ++ ")"])
  | reading {name label exchanges cause} :
      Aborts (.command ("getvar:" ++ name)) (Round.command ("getvar:" ++ name)).turns exchanges
        cause →
      Fails (.reading name label) exchanges (cause.inStep ("getvar:" ++ name))
        (informationLines exchanges ++
          ["FAILED (getvar:" ++ name ++ " (" ++ cause.message ++ "))"])

def Times.past (times : Times) : Item → Times
  | .step _ _ => fun number => times (number + 1)
  | .reading _ _ | .notice _ => times

def finishedLine (times : Times) (items : List Item) : String :=
  "finished. total time: " ++ (items.foldl Times.past times 0).text ++ "s"

/-- The lines of an execution, by its items, its calls and its result. Every step shows a time
of its own. -/
inductive Transcript :
    Times → List Item → List Exchange → Except Error Unit → List String → Prop where
  | finished {times} : Transcript times [] [] (.ok ()) [finishedLine times []]
  | item {times item items exchanges others result lines rest} :
      item.Prints (times 0) exchanges lines →
      Transcript (times.past item) items others result rest →
      Transcript times (item :: items) (exchanges ++ others) result (lines ++ rest)
  | failed {times item items exchanges error lines} :
      item.Fails exchanges error lines →
      Transcript times (item :: items) exchanges (.error error) lines

def printed (times : Times) (events : List Event) : List String :=
  Terminal.initial.texts times (reports events)

structure Outcome.Transcribed (outcome : Outcome Unit) (times : Times)
    (operations : List Operation) : Prop where
  /-- The standard error holds the lines of the transcript, one printed for each report that is
  shown, and the last of them says if everything was done. -/
  lines : ∃ lines,
    Transcript times (items operations) outcome.exchanges outcome.result lines ∧
    printed times outcome.events = lines.map Terminal.line ∧
    Program.terminalText times .initial outcome.events =
      String.join (lines.map Terminal.line) ∧
    (outcome.result = .ok () ↔ lines.getLast? = some (finishedLine times (items operations)))
  /-- No text is printed while a bar is active. -/
  bare : ∀ earlier report later, reports outcome.events = earlier ++ report :: later →
    ∀ elapsed, (Terminal.initial.after times earlier).Bare elapsed report
  /-- In the end no bar is active, and no step is kept in mind. -/
  settled : Terminal.initial.after times (reports outcome.events) = .initial

def Outcome.Renders (outcome : Outcome Unit) (times : Times) (item : Item) : Prop :=
  match outcome.result with
  | .ok _ => ∃ lines, item.Prints (times 0) outcome.exchanges lines ∧
      printed times outcome.events = lines.map Terminal.line ∧
      times.afterAll (reports outcome.events) = times.past item
  | .error error => ∃ lines, item.Fails outcome.exchanges error lines ∧
      printed times outcome.events = lines.map Terminal.line

def Session.Renders {σ : Type} (session : Session σ Unit) (item : Item) : Prop :=
  ∀ times device, (session device).1.Renders times item

def Session.Transcribes {σ : Type} (session : Session σ Unit) (items : List Item) : Prop :=
  ∀ times device, ∃ lines,
    Transcript times items (session device).1.exchanges (session device).1.result lines ∧
    printed times (session device).1.events = lines.map Terminal.line

theorem Times.after_of_interim (times : Times) {report : Progress} (interim : report.IsInterim) :
    times.after report = times := by
  cases report with
  | okay => exact interim.elim
  | finished => exact interim.elim
  | _ => rfl

private theorem Times.afterAll_interim (times : Times) {reports : List Progress}
    (interim : ∀ report ∈ reports, report.IsInterim) : times.afterAll reports = times := by
  induction reports with
  | nil => rfl
  | cons report reports ih =>
      obtain ⟨own, others⟩ := List.forall_mem_cons.mp interim
      rw [afterAll, List.foldl_cons, times.after_of_interim own]
      exact ih others

/-- A stage takes the times that its last report shows. -/
theorem Times.afterAll_closed (times : Times) {events : List Event}
    (interim : ∀ report ∈ reports events, report.IsInterim) (last : Progress) :
    times.afterAll (reports (events ++ [.progress last])) = times.after last := by
  have parts : reports (events ++ [.progress last]) = reports events ++ [last] :=
    reports_append ..
  rw [parts, afterAll, List.foldl_append]
  exact congrArg (·.after last) (times.afterAll_interim interim)

private theorem Terminal.texts_interim {times : Times} {terminal : Terminal} {events : List Event}
    (interim : ∀ report ∈ reports events, report.IsInterim) (later : List Progress) :
    terminal.texts times (reports events ++ later) =
      ((informed events).map ("(bootloader) " ++ ·)).map line ++ terminal.texts times later := by
  rw [informed]
  generalize reports events = middle at interim
  induction middle generalizing terminal with
  | nil => rfl
  | cons report middle ih =>
      obtain ⟨own, others⟩ := List.forall_mem_cons.mp interim
      rw [List.cons_append]
      cases report with
      | info text =>
          rw [texts_cons_line rfl, times.after_of_interim own, ih others]
          rfl
      | transferStarted | transferProgress | transferDone =>
          rw [texts_cons_blank rfl, times.after_of_interim own, ih others]
          refine congrArg _ (texts_congr ?_ later)
          rfl
      | _ => exact own.elim

namespace Protocol

open Session

variable {σ : Type}

/-- The course of a stage, without its first and its last report. -/
structure Courses (events : List Event) : Prop where
  interim : ∀ report ∈ reports events, report.IsInterim
  informed : informed events = (events.filterMap Event.exchange?).filterMap Exchange.information?

theorem exchanges_closed (events : List Event) (report : Progress) :
    (events ++ [Event.progress report]).filterMap Event.exchange? =
      events.filterMap Event.exchange? := by
  simp [Event.exchange?]

theorem exchanges_step (events : List Event) (description : String) (report : Progress) :
    (Event.progress (.begin description) :: (events ++ [.progress report])).filterMap
      Event.exchange? = events.filterMap Event.exchange? :=
  exchanges_closed events report

section Closings

variable {times : Times} {events : List Event} {report : Progress} {text : String}
  (course : Courses events)

include course

/-- The last report of a stage is printed below the information that came in its course. -/
theorem texts_closed {terminal : Terminal}
    (shown : (terminal.print (times 0) report).2 = Terminal.line text) :
    terminal.texts times (reports (events ++ [.progress report])) =
      (informationLines (events.filterMap Event.exchange?) ++ [text]).map Terminal.line := by
  have last : reports (events ++ [.progress report]) = reports events ++ [report] :=
    reports_append ..
  rw [last, Terminal.texts_interim course.interim, course.informed, Terminal.texts_cons_line shown,
    List.map_append]
  rfl

theorem printed_step {description : String}
    (shown : (Terminal.print (times 0) ⟨description, false⟩ report).2 = Terminal.line text) :
    printed times (.progress (.begin description) :: (events ++ [.progress report])) =
      (informationLines (events.filterMap Event.exchange?) ++ [text]).map Terminal.line := by
  rw [printed, reports_cons_report rfl, Terminal.texts_cons_blank rfl]
  exact texts_closed course shown

end Closings

theorem renders_step {body : Session σ Unit} {description : String} {round : Round}
    (named : description ≠ "") (conducted : body.Conducts round round.turns)
    (course : ∀ device, Courses (body device).1.events) :
    (step description body).Renders (.step description round) := by
  intro times device
  have carried := conducted device
  have course := course device
  rcases ran : body device with ⟨⟨result, events⟩, next⟩
  rw [ran] at carried course
  cases result with
  | ok value =>
      rw [step_of_ok ran, Outcome.Renders, Outcome.exchanges_mk, exchanges_step]
      exact ⟨_, .step carried, printed_step course rfl, times.afterAll_closed course.interim .okay⟩
  | error error =>
      rw [step_of_error ran, Outcome.Renders, Outcome.exchanges_mk, exchanges_step]
      refine ⟨_, .step carried, printed_step course ?_⟩
      have joined : "... FAILED (" = "... " ++ "FAILED (" := by simp
      rw [Terminal.print, if_neg named, joined]
      simp only [String.append_assoc]

private theorem renders_showVariable (transport : Transport σ) (name label : String) :
    (showVariable transport name label).Renders (.reading name label) := by
  intro times device
  have carried := conducts_expectOkay transport ("getvar:" ++ name) device
  have course : Courses (expectOkay transport ("getvar:" ++ name) device).1.events :=
    ⟨(interim_invariant transport).expectOkay _ device,
      (informs_invariant transport).expectOkay _ device⟩
  rcases ran : expectOkay transport ("getvar:" ++ name) device with ⟨⟨result, events⟩, next⟩
  rw [ran] at carried course
  cases result with
  | ok value =>
      obtain ⟨packet, last, parsed⟩ := last_of_expectOkay ran
      rw [showVariable_of_ok label ran, Outcome.Renders, Outcome.exchanges_mk, exchanges_closed]
      exact ⟨_, .reading carried last parsed, texts_closed course rfl,
        times.afterAll_closed course.interim (.display label _)⟩
  | error error =>
      rw [showVariable_of_error label ran, Outcome.Renders, Outcome.exchanges_mk, exchanges_closed]
      refine ⟨_, .reading carried, texts_closed course ?_⟩
      have joined : "FAILED (getvar:" = "FAILED (" ++ "getvar:" := by simp
      have closed : "))" = ")" ++ ")" := by simp
      have outside : Terminal.initial.step = "" := rfl
      rw [Terminal.print, if_pos outside, joined, closed]
      simp only [String.append_assoc]

theorem transcribes_bind {first : Session σ Unit} {next : Unit → Session σ Unit} {item : Item}
    {items : List Item} {steps : List Progress} {broken : Phase → Prop}
    (led : first.Leads .outside steps .outside broken) (head : first.Renders item)
    (tail : ∀ value, (next value).Transcribes items) :
    (first >>= next).Transcribes (item :: items) := by
  intro times device
  have led := led device
  have rendered := head times device
  rcases ran : first device with ⟨⟨result, events⟩, after⟩
  rw [ran] at led rendered
  cases result with
  | error error =>
      obtain ⟨lines, fails, told⟩ := rendered
      rw [bind_error ran]
      exact ⟨lines, .failed fails, told⟩
  | ok value =>
      obtain ⟨lines, prints, told, spent⟩ := rendered
      obtain ⟨rest, transcript, others⟩ := tail value (times.past item) after
      have settled : Terminal.initial.after times (reports events) = .initial :=
        (Phase.suits_initial.follow times led.1).1
      rw [bind_ok ran, Outcome.exchanges_after, Outcome.result_after]
      refine ⟨lines ++ rest, .item prints transcript, ?_⟩
      rw [Outcome.after, printed, reports_append, Terminal.texts_append, settled, spent,
        List.map_append]
      exact congrArg₂ _ told others

section Operations

variable {next : Unit → Session σ Unit} {others : List Item}
  (transport : Transport σ) (tail : ∀ value, (next value).Transcribes others)

include tail

theorem transcribes_commandStep {description : String} (named : description ≠ "")
    (line : String) :
    (commandStep transport description line >>= next).Transcribes
      (.step description (.command line) :: others) := by
  refine transcribes_bind (leads_commandStep transport description line) ?_ tail
  refine renders_step named ?_ fun device => ⟨?_, ?_⟩
  · exact (conducts_expectOkay transport line).before_silence fun _ => conducts_pure ()
  · exact ((interim_invariant transport).expectOkay line).bind (fun _ => interim_silent rfl) device
  · exact ((informs_invariant transport).expectOkay line).bind (fun _ _ => rfl) device

theorem transcribes_downloadStep (name : String) (payload : ByteArray) :
    (downloadStep transport name payload >>= next).Transcribes
      (.step (sendingText name payload.size) (.payload payload) :: others) := by
  refine transcribes_bind (leads_downloadStep transport name payload) ?_ tail
  refine renders_step ?_ (conducts_download transport payload) fun device => ⟨?_, ?_⟩
  · simp [sendingText]
  · exact (interim_invariant transport).download payload device
  · exact (informs_invariant transport).download payload device

private theorem transcribes_run {operation : Operation}
    (worded : ∀ line message, operation = .command line message → line ≠ "") :
    (run transport operation >>= next).Transcribes (operation.items ++ others) := by
  cases operation with
  | flash partition image =>
      rw [run, bind_assoc]
      refine transcribes_downloadStep transport (fun _ => ?_) partition image
      exact transcribes_commandStep transport tail (by simp) _
  | erase partition => exact transcribes_commandStep transport tail (by simp) _
  | display name label =>
      exact transcribes_bind (leads_showVariable transport name label)
        (renders_showVariable transport name label) tail
  | notice message =>
      refine transcribes_bind (leads_run transport (.notice message)) (fun times device => ?_) tail
      exact ⟨_, .notice, Terminal.texts_cons_line rfl [], rfl⟩
  | command line message =>
      have named : (if message = "" then line else message) ≠ "" := by
        split
        · exact worded line message rfl
        · assumption
      exact transcribes_commandStep transport tail named line
  | reboot => exact transcribes_commandStep transport tail (by simp) _
  | rebootBootloader => exact transcribes_commandStep transport tail (by simp) _
  | download tag payload => exact transcribes_downloadStep transport tail tag payload

end Operations

private theorem transcribes_runAll (transport : Transport σ) {operations : List Operation}
    (worded : ∀ line message, .command line message ∈ operations → line ≠ "") :
    (runAll transport operations >>= fun _ => report .finished).Transcribes
      (items operations) := by
  induction operations with
  | nil => exact fun times device => ⟨_, .finished, Terminal.texts_cons_line rfl []⟩
  | cons operation operations ih =>
      have rest := ih fun line message member =>
        worded line message (List.mem_cons_of_mem _ member)
      rw [runAll, bind_assoc]
      exact transcribes_run transport (fun _ => rest) fun line message same =>
        worded line message (List.mem_cons.mpr (.inl same.symm))

private theorem transcribes_execute (transport : Transport σ) {queue : Queue}
    (worded : ∀ line message, .command line message ∈ queue.toList → line ≠ "") :
    (execute transport queue).Transcribes (items queue.toList) := by
  intro times device
  obtain ⟨lines, transcript, told⟩ := transcribes_runAll transport worded times device
  exact ⟨lines, transcript, told⟩

end Protocol

theorem Item.Fails.last_line {item : Item} {exchanges : List Exchange} {error : Error}
    {lines : List String} (fails : item.Fails exchanges error lines) :
    ∃ front last, lines = front ++ [last] ∧ last.toList.getLast? = some ')' := by
  cases fails with
  | step aborted => exact ⟨_, _, rfl, by simp [List.getLast?_cons, List.getLast?_append]⟩
  | reading aborted => exact ⟨_, _, rfl, by simp [List.getLast?_cons, List.getLast?_append]⟩

theorem Transcript.last_line {times : Times} {items : List Item} {exchanges : List Exchange}
    {result : Except Error Unit} {lines : List String}
    (transcript : Transcript times items exchanges result lines) :
    ∃ front last, lines = front ++ [last] ∧
      ((result = .ok () ∧ last = finishedLine times items) ∨
        ∃ error, result = .error error ∧ last.toList.getLast? = some ')') := by
  induction transcript with
  | finished => exact ⟨[], _, rfl, .inl ⟨rfl, rfl⟩⟩
  | item _ _ ih =>
      obtain ⟨front, last, rfl, verdict⟩ := ih
      exact ⟨_ ++ front, last, (List.append_assoc ..).symm, verdict⟩
  | failed fails =>
      obtain ⟨front, last, rfl, closed⟩ := fails.last_line
      exact ⟨front, last, rfl, .inr ⟨_, rfl, closed⟩⟩

private theorem getLast?_finishedLine (times : Times) (items : List Item) :
    (finishedLine times items).toList.getLast? = some 's' := by
  unfold finishedLine
  rw [String.toList_append, List.getLast?_append]
  rfl

/-- The last line says whether everything was done. -/
theorem Transcript.finished_iff {times : Times} {items : List Item} {exchanges : List Exchange}
    {result : Except Error Unit} {lines : List String}
    (transcript : Transcript times items exchanges result lines) :
    result = .ok () ↔ lines.getLast? = some (finishedLine times items) := by
  obtain ⟨front, last, rfl, ⟨rfl, rfl⟩ | ⟨error, rfl, closed⟩⟩ := transcript.last_line
  · simp
  · refine iff_of_false nofun ?_
    intro same
    obtain rfl : last = finishedLine times items := by simpa using same
    rw [getLast?_finishedLine] at closed
    cases closed

/-- Whatever line is accepted, the execution of its queue is printed as its operations and the
calls for them go on, and nothing is printed over a bar. -/
theorem Protocol.transcribed_execute {σ : Type} {files : Files} {serial : Option String}
    {words : List String} {invocation : Invocation}
    (accepted : (CommandLine.read files serial words).result = .ok invocation)
    (times : Times) (transport : Transport σ) (device : σ) :
    (execute transport invocation.queue device).1.Transcribed times
      invocation.queue.toList := by
  obtain ⟨lines, transcript, told⟩ := transcribes_execute transport
    (fun _ _ => CommandLine.line_ne_empty_of_read accepted) times device
  have quiet := (unnoticed_invariant transport).execute invocation.queue device
  have phases := (leads_execute transport invocation.queue device).phases
  obtain ⟨settled, bare⟩ := Phase.suits_initial.follow times phases
  refine ⟨⟨lines, transcript, told, ?_, transcript.finished_iff⟩, bare, ?_⟩
  · rw [Program.terminalText_eq quiet]
    exact congrArg String.join told
  · cases ended : (execute transport invocation.queue device).1.result <;>
      (rw [ended] at settled; exact settled)

/-- A variable is read, and then a transfer is cut short. -/
theorem Protocol.transcribed_cut_short :
    let files : Files := ⟨fun _ => .ok ⟨#[1, 2]⟩, fun _ => .error "no archive"⟩
    let queue : Queue := ⟨#[.display "version" "version", .flash "boot" ⟨#[1, 2]⟩]⟩
    let device : Script :=
      ⟨[.all, .all, .count 1],
        [.packet "INFObusy".toUTF8, .packet "OKAY0.5".toUTF8, .packet "DATA00000002".toUTF8]⟩
    let executed := (execute Script.transport queue device).1
    (CommandLine.read files none ["getvar", "version", "flash", "boot", "boot.img"]).result =
        .ok ⟨.any, queue⟩ ∧
      executed.Transcribed (fun _ => ⟨1500⟩) queue.toList ∧
      printed (fun _ => ⟨1500⟩) executed.events =
        ["(bootloader) busy\n", "version: 0.5\n",
         "sending 'boot' (0 KB)... FAILED (usb error: data transfer failed (1 of 2 bytes))\n"] := by
  intro files queue device executed
  have accepted : (CommandLine.read files none
      ["getvar", "version", "flash", "boot", "boot.img"]).result = .ok ⟨.any, queue⟩ := by
    decide +kernel
  exact ⟨accepted, transcribed_execute accepted (fun _ => ⟨1500⟩) Script.transport device,
    by decide +kernel⟩

end FlashHost
