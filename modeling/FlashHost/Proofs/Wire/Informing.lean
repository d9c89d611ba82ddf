import FlashHost.Proofs.Device.Information
import FlashHost.Proofs.Progress.Bracketing
import FlashHost.Proofs.Wire.Failure

/-!
# What packets have to say

The user is told of the information that packets bring, and of nothing else in its place. The
result of a command is what the last packet says.
-/

set_option autoImplicit false

namespace FlashHost

def Exchange.information? : Exchange → Option String
  | .read (.ok packet) =>
    match Response.parse packet with
    | .ok (.info text) => some text
    | _ => none
  | _ => none

theorem informed_of_silent {events : List Event} (silent : reports events = []) :
    informed events = [] := by
  rw [informed, silent]
  rfl

def Session.Informs {σ α : Type} (session : Session σ α) : Prop :=
  ∀ device,
    informed (session device).1.events =
      (session device).1.exchanges.filterMap Exchange.information?

theorem Session.Informs.bind {σ α β : Type} {first : Session σ α} {next : α → Session σ β}
    (head : first.Informs) (tail : ∀ value, (next value).Informs) : (first >>= next).Informs := by
  intro device
  have own := head device
  rcases ran : first device with ⟨⟨result, events⟩, after⟩
  rw [ran] at own
  cases result with
  | error error =>
      rw [bind_error ran]
      exact own
  | ok value =>
      have rest := tail value after
      rw [bind_ok ran, Outcome.exchanges_after, List.filterMap_append, ← rest]
      rw [Outcome.after, informed_append, own]
      rfl

/-- The result of the session is the reply in the last packet that was read. -/
def Session.Hears {σ : Type} (session : Session σ Reply) : Prop :=
  ∀ device reply events next, session device = (⟨.ok reply, events⟩, next) →
    ∃ packet, (events.filterMap Event.exchange?).getLast? = some (.read (.ok packet)) ∧
      Response.parse packet = .ok reply.response

theorem Session.hears_fail {σ : Type} (error : Error) : (fail error : Session σ Reply).Hears :=
  nofun

theorem Session.hears_bind {σ α : Type} {first : Session σ α} {next : α → Session σ Reply}
    (tail : ∀ value, (next value).Hears) : (first >>= next).Hears := by
  intro device reply events last whole
  rcases ran : first device with ⟨⟨result, others⟩, after⟩
  cases result with
  | error error => cases (bind_error ran).symm.trans whole
  | ok value =>
      rw [bind_ok ran] at whole
      rcases continued : next value after with ⟨⟨result, rest⟩, final⟩
      rw [continued] at whole
      cases whole
      obtain ⟨packet, heard, parsed⟩ := tail value _ _ _ _ continued
      exact ⟨packet, by simp [List.filterMap_append, List.getLast?_append, heard], parsed⟩

namespace Protocol

open Session

variable {σ : Type}

private theorem informs_readReplyInto (transport : Transport σ) (buffer : ByteArray) :
    (readReplyInto transport buffer).Informs := by
  intro device
  apply readReplyInto_induction fun _ _ run =>
    informed run.1.events = run.1.exchanges.filterMap Exchange.information?
  case unread =>
    intro buffer device error events next failed
    obtain ⟨fault, -, shown⟩ := read_failed failed
    rw [Outcome.exchanges_mk, shown, informed_of_silent (read_silent failed)]
    rfl
  case undecodable =>
    intro buffer device size filled events next fault received parsed
    rw [Outcome.exchanges_mk, read_received received, informed_of_silent (read_silent received)]
    simp [Exchange.information?, parsed]
  case refused =>
    intro buffer device size filled events next reason received parsed
    rw [Outcome.exchanges_mk, received_noted received,
      informed_of_silent (received_silent received _)]
    simp [Exchange.information?, parsed]
  case replied =>
    intro buffer device size filled events next reply received parsed
    rw [Outcome.exchanges_mk, received_noted received,
      informed_of_silent (received_silent received _)]
    cases reply <;> simp [Exchange.information?, parsed, Reply.response]
  case informed =>
    intro buffer device size filled events next text rest last received parsed told
    rw [Outcome.exchanges_after, List.filterMap_append, List.filterMap_append,
      received_noted received, List.filterMap_append, ← told, Outcome.after, informed_append,
      informed_append, informed_of_silent (received_silent received _)]
    simp [Exchange.information?, parsed]
    rfl

theorem informs_invariant (transport : Transport σ) :
    CommandInvariant transport fun _ session => session.Informs where
  pure _ _ := rfl
  fail _ _ := rfl
  note _ _ := rfl
  transfer report inside := by
    intro device
    cases report with
    | transferStarted | transferProgress | transferDone => rfl
    | _ => exact inside.elim
  write data := by
    intro device
    have calls : (Session.write transport data device).1.exchanges = [.write data _] :=
      exchanges_written _ data _
    obtain ⟨outcome, events, ran, silent, -⟩ := write_silent transport data device
    rw [calls, ran, informed_of_silent silent]
    rfl
  readReply := informs_readReplyInto transport packetBuffer
  bind := Informs.bind

private theorem hears_readReply (transport : Transport σ) : (readReply transport).Hears := by
  intro device reply events next ran
  have answered := answers_readReplyInto transport packetBuffer device
  have run : readReplyInto transport packetBuffer device = _ := ran
  rw [run] at answered
  exact answered.2

private theorem hears_sendCommand (transport : Transport σ) (line : String) :
    (sendCommand transport line).Hears := by
  unfold sendCommand
  split
  · exact hears_fail _
  · refine hears_bind fun _ => hears_bind fun _ => ?_
    split
    · exact hears_fail _
    · exact hears_readReply transport

/-- The result of a command is the text of the last packet that was read for it. -/
theorem last_of_expectOkay {transport : Transport σ} {line value : String} {device next : σ}
    {events : List Event}
    (ran : expectOkay transport line device = (⟨.ok value, events⟩, next)) :
    ∃ packet, (events.filterMap Event.exchange?).getLast? = some (.read (.ok packet)) ∧
      Response.parse packet = .ok (.okay value) := by
  rcases sent : sendCommand transport line device with ⟨⟨result, others⟩, after⟩
  rw [expectOkay] at ran
  cases result with
  | error error => cases (bind_error sent).symm.trans ran
  | ok reply =>
      obtain ⟨packet, last, parsed⟩ := hears_sendCommand transport line _ _ _ _ sent
      have whole := (bind_ok sent).symm.trans ran
      cases reply with
      | data size => cases whole
      | okay text =>
          have same : others ++ [] = events := congrArg (·.1.events) whole
          cases whole
          exact ⟨packet, by rw [← same, List.append_nil]; exact last, parsed⟩

end Protocol

end FlashHost
