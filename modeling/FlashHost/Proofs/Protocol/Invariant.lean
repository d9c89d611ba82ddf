import FlashHost.Proofs.Protocol.Relation

/-!
# Invariants of sessions

A property of sessions that passes from the parts to what is made of them holds of every
session of the protocol, up to the execution of a queue. It relates each session to itself.
-/

set_option autoImplicit false

namespace FlashHost.Protocol

variable {σ : Type}

/-- A property that holds of the calls and notes of a command or a payload, and of such
sessions in sequence. -/
structure CommandInvariant (transport : Transport σ) (holds : (α : Type) → Session σ α → Prop) :
    Prop where
  pure : ∀ {α : Type} (value : α), holds α (Pure.pure value)
  fail : ∀ {α : Type} (error : Error), holds α (Session.fail error)
  note : ∀ text, holds Unit (Session.note text)
  transfer : ∀ report : Progress, report.IsTransfer → holds Unit (Session.report report)
  write : ∀ data, holds Nat (Session.write transport data)
  readReply : holds Reply (readReply transport)
  bind : ∀ {α β : Type} {first : Session σ α} {next : α → Session σ β},
    holds α first → (∀ value, holds β (next value)) → holds β (first >>= next)

/-- A property that holds moreover of sessions that are run to their ends, whatever these are,
and of all reports but information, which only readings of replies make. -/
structure ExecutionInvariant (transport : Transport σ) (holds : (α : Type) → Session σ α → Prop) :
    Prop extends CommandInvariant transport holds where
  report : ∀ report : Progress, (∀ text, report ≠ .info text) → holds Unit (Session.report report)
  attempt : ∀ {α : Type} {session : Session σ α},
    holds α session → holds (Except Error α) session.attempt

variable {transport : Transport σ} {holds : (α : Type) → Session σ α → Prop}

namespace CommandInvariant

variable (invariant : CommandInvariant transport holds)

include invariant

theorem relation : CommandRelation transport transport fun α session other =>
    other = session ∧ holds α session where
  pure value := ⟨rfl, invariant.pure value⟩
  fail error := ⟨rfl, invariant.fail error⟩
  note text := ⟨rfl, invariant.note text⟩
  transfer report inside := ⟨rfl, invariant.transfer report inside⟩
  write data _ := ⟨rfl, invariant.write data⟩
  readReply := ⟨rfl, invariant.readReply⟩
  bind head tail := by
    obtain ⟨rfl, held⟩ := head
    exact ⟨congrArg _ (funext fun value => (tail value).1),
      invariant.bind held fun value => (tail value).2⟩

theorem sendCommand (line : String) : holds Reply (sendCommand transport line) :=
  (invariant.relation.sendCommand line).2

theorem expectOkay (line : String) : holds String (expectOkay transport line) :=
  (invariant.relation.expectOkay line).2

theorem download (payload : ByteArray) : holds Unit (download transport payload) :=
  (invariant.relation.download payload).2

end CommandInvariant

namespace ExecutionInvariant

variable (invariant : ExecutionInvariant transport holds)

include invariant

theorem relation : ExecutionRelation transport transport fun α session other =>
    other = session ∧ holds α session where
  toCommandRelation := invariant.toCommandInvariant.relation
  report report known := ⟨rfl, invariant.report report known⟩
  attempt related := by
    obtain ⟨rfl, held⟩ := related
    exact ⟨rfl, invariant.attempt held⟩

theorem commandStep (description line : String) :
    holds Unit (commandStep transport description line) :=
  (invariant.relation.commandStep description line).2

theorem run (operation : Operation) : holds Unit (run transport operation) :=
  (invariant.relation.run operation).2

theorem execute (queue : Queue) : holds Unit (execute transport queue) :=
  (invariant.relation.execute queue).2

end ExecutionInvariant

end FlashHost.Protocol
