import FlashHost.Program
import FlashHost.Proofs.Progress.Bracketing
import FlashHost.Proofs.Protocol.Invariant

/-!
# What is printed of the reports

The terminal goes through the reports of an execution one by one. It keeps a step in mind just
while the step is open, and a bar is active just while a payload is sent, so that no text is
ever printed over a bar.
-/

set_option autoImplicit false

namespace FlashHost

def Times.afterAll (times : Times) (reports : List Progress) : Times :=
  reports.foldl Times.after times

namespace Terminal

def after : Times → Terminal → List Progress → Terminal
  | _, terminal, [] => terminal
  | times, terminal, report :: reports =>
    after (times.after report) (terminal.print (times 0) report).1 reports

def texts : Times → Terminal → List Progress → List String
  | _, _, [] => []
  | times, terminal, report :: reports =>
    let printed := terminal.print (times 0) report
    (if printed.2 = "" then [] else [printed.2]) ++ texts (times.after report) printed.1 reports

variable {times : Times} {terminal : Terminal}

theorem line_ne_empty (text : String) : line text ≠ "" := by
  simp [line]

theorem texts_cons_blank {report : Progress} (blank : (terminal.print (times 0) report).2 = "")
    (reports : List Progress) :
    terminal.texts times (report :: reports) =
      (terminal.print (times 0) report).1.texts (times.after report) reports := by
  simp [texts, blank]

theorem texts_cons_line {report : Progress} {text : String}
    (shown : (terminal.print (times 0) report).2 = line text) (reports : List Progress) :
    terminal.texts times (report :: reports) =
      line text :: (terminal.print (times 0) report).1.texts (times.after report) reports := by
  simp [texts, shown, line_ne_empty]

theorem texts_append (times : Times) (terminal : Terminal) (earlier later : List Progress) :
    terminal.texts times (earlier ++ later) =
      terminal.texts times earlier ++
        (terminal.after times earlier).texts (times.afterAll earlier) later := by
  induction earlier generalizing times terminal with
  | nil => rfl
  | cons report earlier ih =>
      simp only [List.cons_append, texts]
      rw [ih, List.append_assoc]
      rfl

/-- What is printed depends on the step that is kept in mind, and on no bar. -/
theorem print_congr {other : Terminal} (same : other.step = terminal.step) (elapsed : Duration)
    (report : Progress) :
    (other.print elapsed report).2 = (terminal.print elapsed report).2 ∧
      (other.print elapsed report).1.step = (terminal.print elapsed report).1.step := by
  cases report <;> simp [print, same, initial]

theorem texts_congr {other : Terminal} (same : other.step = terminal.step)
    (reports : List Progress) : other.texts times reports = terminal.texts times reports := by
  induction reports generalizing times terminal other with
  | nil => rfl
  | cons report reports ih =>
      obtain ⟨text, step⟩ := print_congr same (times 0) report
      simp only [texts]
      rw [text, ih step]

end Terminal

/-- A terminal suits a phase: a bar is active just while a payload is sent, and no step is kept
in mind outside of steps. -/
def Phase.Suits (phase : Phase) (terminal : Terminal) : Prop :=
  match phase with
  | .inside _ => terminal.bar = false
  | .sending _ _ _ => terminal.bar = true
  | .outside | .finished | .failed => terminal = .initial

/-- A report that is printed leaves no bar behind. Only a failure may find one, which it takes
down before its text is printed. -/
def Terminal.Bare (elapsed : Duration) (terminal : Terminal) (report : Progress) : Prop :=
  (terminal.print elapsed report).2 ≠ "" →
    (terminal.print elapsed report).1.bar = false ∧
      (terminal.bar = false ∨ ∃ reason, report = .failed reason)

namespace Phase

variable {phase next last : Phase} {terminal : Terminal} {events : List Event}

theorem suits_initial : outside.Suits .initial := rfl

private theorem suits_pass (count : Nat) : (phase.pass count).Suits terminal ↔ phase.Suits terminal := by
  cases phase <;> rfl

/-- One report takes a terminal that suits its phase to one that suits the next phase. -/
theorem Suits.print (elapsed : Duration) {report : Progress} (suits : phase.Suits terminal)
    (may : phase.report report = some next) :
    next.Suits (terminal.print elapsed report).1 ∧ terminal.Bare elapsed report := by
  cases phase with
  | outside =>
      obtain rfl : terminal = .initial := suits
      cases report <;> cases may <;> exact ⟨rfl, fun _ => ⟨rfl, .inl rfl⟩⟩
  | inside sent =>
      have clear : terminal.bar = false := suits
      cases report with
      | transferStarted size =>
          cases sent <;> cases may
          exact ⟨rfl, fun shown => absurd rfl shown⟩
      | info text => cases may; exact ⟨clear, fun _ => ⟨clear, .inl clear⟩⟩
      | okay => cases may; exact ⟨rfl, fun _ => ⟨rfl, .inl clear⟩⟩
      | failed reason => cases may; exact ⟨rfl, fun _ => ⟨rfl, .inl clear⟩⟩
      | _ => cases may
  | sending size taken shown =>
      have active : terminal.bar = true := suits
      cases report with
      | transferProgress sent =>
          obtain ⟨-, ⟨⟩⟩ := Option.ite_none_right_eq_some.mp may
          exact ⟨active, fun shown => absurd rfl shown⟩
      | transferDone =>
          obtain ⟨-, ⟨⟩⟩ := Option.ite_none_right_eq_some.mp may
          exact ⟨rfl, fun shown => absurd rfl shown⟩
      | failed reason =>
          obtain ⟨-, ⟨⟩⟩ := Option.ite_none_right_eq_some.mp may
          exact ⟨rfl, fun _ => ⟨rfl, .inr ⟨reason, rfl⟩⟩⟩
      | _ => cases may
  | finished => cases report <;> cases may
  | failed => cases report <;> cases may

/-- All reports that the phases allow are printed on a terminal without a bar. -/
theorem Suits.follow (times : Times) (suits : phase.Suits terminal)
    (followed : phase.follow events = some last) :
    last.Suits (terminal.after times (reports events)) ∧
      ∀ earlier report later, reports events = earlier ++ report :: later →
        ∀ elapsed, (terminal.after times earlier).Bare elapsed report := by
  induction events generalizing times phase terminal with
  | nil =>
      cases followed
      exact ⟨suits, by simp⟩
  | cons event events ih =>
      obtain ⟨silent, rest⟩ | ⟨report, after, rfl, may, rest⟩ := follow_cons followed
      · rw [reports_cons_silent silent]
        exact ih times ((suits_pass _).mpr suits) rest
      · obtain ⟨final, others⟩ := ih (times.after report) (suits.print (times 0) may).1 rest
        rw [reports_cons_report rfl]
        refine ⟨final, ?_⟩
        intro earlier other later parts
        cases earlier with
        | nil =>
            cases parts
            exact fun elapsed => (suits.print elapsed may).2
        | cons first earlier =>
            obtain ⟨rfl, behind⟩ := List.cons.inj parts
            exact others earlier other later behind

end Phase

/-- The event is shown on the standard error and is no report of an execution. -/
def Event.IsNotice : Event → Prop
  | .waiting | .usageShown => True
  | _ => False

/-- The standard error holds what is printed for the reports, if nothing else is shown there. -/
theorem Program.terminalText_eq {events : List Event} (quiet : ∀ event ∈ events, ¬ event.IsNotice)
    (times : Times) (terminal : Terminal) :
    terminalText times terminal events = String.join (terminal.texts times (reports events)) := by
  induction events generalizing times terminal with
  | nil => rfl
  | cons event events ih =>
      obtain ⟨own, others⟩ := List.forall_mem_cons.mp quiet
      cases event with
      | progress report =>
          have rest := ih others (times.after report) (terminal.print (times 0) report).1
          rw [reports_cons_report rfl, Terminal.texts, String.join_append, ← rest, terminalText]
          by_cases blank : (terminal.print (times 0) report).2 = ""
          · simp [blank]
          · simp [blank]
      | waiting => exact absurd trivial own
      | usageShown => exact absurd trivial own
      | _ =>
          rw [reports_cons_silent rfl, ← ih others times terminal]
          exact String.empty_append

namespace Protocol

open Session

variable {σ : Type}

theorem unnoticed_call (transfers : List Transfer) {call : Event} (own : ¬ call.IsNotice) :
    ∀ event ∈ transfers.map .transferred ++ [call], ¬ event.IsNotice := by
  refine List.forall_mem_append.mpr ⟨?_, List.forall_mem_singleton.mpr own⟩
  intro event member
  obtain ⟨transfer, -, rfl⟩ := List.mem_map.mp member
  exact id

theorem unnoticed_read {transport : Transport σ} {buffer : ByteArray} {device next : σ}
    {result : Except Error (Nat × ByteArray)} {events : List Event}
    (ran : Session.read transport buffer device = (⟨result, events⟩, next)) :
    ∀ event ∈ events, ¬ event.IsNotice := by
  simp only [Session.read, Prod.mk.injEq, Outcome.mk.injEq] at ran
  obtain ⟨⟨-, rfl⟩, -⟩ := ran
  exact unnoticed_call _ id

private theorem unnoticed_readReply (transport : Transport σ) (device : σ) :
    ∀ event ∈ (readReply transport device).1.events, ¬ event.IsNotice := by
  apply readReplyInto_induction fun _ _ run => ∀ event ∈ run.1.events, ¬ event.IsNotice
  case unread => exact fun failed => unnoticed_read failed
  case undecodable => exact fun received _ => unnoticed_read received
  case refused =>
    intro buffer device size filled events next reason received parsed
    exact List.forall_mem_append.mpr ⟨unnoticed_read received, by simp [Event.IsNotice]⟩
  case replied =>
    intro buffer device size filled events next reply received parsed
    exact List.forall_mem_append.mpr ⟨unnoticed_read received, by simp [Event.IsNotice]⟩
  case informed =>
    intro buffer device size filled events next text rest last received parsed others
    refine List.forall_mem_append.mpr ⟨?_, others⟩
    rw [List.append_assoc]
    exact List.forall_mem_append.mpr ⟨unnoticed_read received, by simp [Event.IsNotice]⟩

/-- An execution shows nothing on the standard error but its reports. -/
theorem unnoticed_invariant (transport : Transport σ) :
    ExecutionInvariant transport fun _ session =>
      ∀ device, ∀ event ∈ (session device).1.events, ¬ event.IsNotice where
  pure _ _ := List.forall_mem_nil _
  fail _ _ := List.forall_mem_nil _
  note _ _ := List.forall_mem_singleton.mpr id
  transfer _ _ _ := List.forall_mem_singleton.mpr id
  write _ _ := unnoticed_call _ id
  readReply := unnoticed_readReply transport
  bind := forall_events_bind
  report _ _ _ := List.forall_mem_singleton.mpr id
  attempt held := held

end Protocol

end FlashHost
