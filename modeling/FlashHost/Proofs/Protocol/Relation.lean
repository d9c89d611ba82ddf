import FlashHost.Protocol.Execution

/-!
# Relations between sessions

A relation between sessions on two transports that passes from the parts to what is made of
them holds between the sessions of the protocol on the one and on the other, up to the
execution of a queue. Nothing longer than a piece of a payload is ever written.
-/

set_option autoImplicit false

namespace FlashHost

def Progress.IsTransfer : Progress → Prop
  | .transferStarted _ | .transferProgress _ | .transferDone => True
  | _ => False

namespace Protocol

variable {σ τ : Type}

/-- A relation between the calls and notes of a command or a payload on two transports, and
between such sessions in sequence. -/
structure CommandRelation (first : Transport σ) (second : Transport τ)
    (relates : (α : Type) → Session σ α → Session τ α → Prop) : Prop where
  pure : ∀ {α : Type} (value : α), relates α (Pure.pure value) (Pure.pure value)
  fail : ∀ {α : Type} (error : Error), relates α (Session.fail error) (Session.fail error)
  note : ∀ text, relates Unit (Session.note text) (Session.note text)
  transfer : ∀ report : Progress, report.IsTransfer →
    relates Unit (Session.report report) (Session.report report)
  write : ∀ data : ByteArray, data.size ≤ pieceSize →
    relates Nat (Session.write first data) (Session.write second data)
  readReply : relates Reply (readReply first) (readReply second)
  bind : ∀ {α β : Type} {session : Session σ α} {other : Session τ α}
    {next : α → Session σ β} {after : α → Session τ β},
    relates α session other → (∀ value, relates β (next value) (after value)) →
    relates β (session >>= next) (other >>= after)

/-- A relation that holds moreover between sessions that are run to their ends, whatever these
are, and between all reports but information, which only readings of replies make. -/
structure ExecutionRelation (first : Transport σ) (second : Transport τ)
    (relates : (α : Type) → Session σ α → Session τ α → Prop) : Prop
    extends CommandRelation first second relates where
  report : ∀ report : Progress, (∀ text, report ≠ .info text) →
    relates Unit (Session.report report) (Session.report report)
  attempt : ∀ {α : Type} {session : Session σ α} {other : Session τ α},
    relates α session other → relates (Except Error α) session.attempt other.attempt

private theorem size_le_of_mem_piecesFrom {size offset : Nat} {data piece : ByteArray}
    (member : piece ∈ piecesFrom size data offset) : piece.size ≤ size := by
  fun_induction piecesFrom size data offset with
  | case1 offset more ih =>
      rcases List.mem_cons.mp member with rfl | later
      · rw [ByteArray.size_extract]
        omega
      · exact ih later
  | case2 offset none => cases member

variable {first : Transport σ} {second : Transport τ}
  {relates : (α : Type) → Session σ α → Session τ α → Prop}

namespace CommandRelation

variable (relation : CommandRelation first second relates)

include relation

theorem sendCommand (line : String) :
    relates Reply (sendCommand first line) (sendCommand second line) := by
  unfold Protocol.sendCommand
  split
  case isTrue large => exact relation.fail _
  case isFalse small =>
    have size : line.toUTF8.size ≤ pieceSize := by
      rw [String.toUTF8_eq_toByteArray, String.size_toByteArray]
      exact Nat.le_trans (Nat.le_of_not_lt small) (by decide)
    refine relation.bind (relation.note _) ?_
    intro _
    refine relation.bind (relation.write _ size) ?_
    intro count
    split
    · exact relation.fail _
    · exact relation.readReply

theorem expectOkay (line : String) :
    relates String (expectOkay first line) (expectOkay second line) := by
  refine relation.bind (relation.sendCommand line) ?_
  intro reply
  cases reply with
  | okay text => exact relation.pure text
  | data size => exact relation.fail _

theorem sendPieces (total sent : Nat) {pieces : List ByteArray}
    (small : ∀ piece ∈ pieces, piece.size ≤ pieceSize) :
    relates Unit (sendPieces first total sent pieces) (sendPieces second total sent pieces) := by
  induction pieces generalizing sent with
  | nil => exact relation.pure ()
  | cons piece pieces ih =>
      obtain ⟨own, others⟩ := List.forall_mem_cons.mp small
      rw [Protocol.sendPieces, Protocol.sendPieces]
      refine relation.bind (relation.write piece own) ?_
      intro count
      split
      · exact relation.fail _
      · exact relation.bind (relation.transfer _ trivial) fun _ => ih _ others

theorem download (payload : ByteArray) :
    relates Unit (download first payload) (download second payload) := by
  simp only [Protocol.download]
  split
  · exact relation.fail _
  · refine relation.bind (relation.sendCommand _) ?_
    intro reply
    cases reply with
    | okay text => exact relation.fail _
    | data accepted =>
        dsimp only
        split
        · exact relation.fail _
        · refine relation.bind (relation.transfer _ trivial) fun _ =>
            relation.bind (relation.sendPieces _ _ fun _ => size_le_of_mem_piecesFrom) fun _ =>
              relation.bind (relation.transfer _ trivial) fun _ =>
                relation.bind relation.readReply ?_
          intro confirmed
          cases confirmed with
          | okay text => exact relation.pure ()
          | data size => exact relation.fail _

end CommandRelation

namespace ExecutionRelation

variable (relation : ExecutionRelation first second relates)

include relation

theorem step {body : Session σ Unit} {other : Session τ Unit} (description : String)
    (related : relates Unit body other) :
    relates Unit (step description body) (step description other) := by
  refine relation.bind (relation.report _ nofun) fun _ =>
    relation.bind (relation.attempt related) ?_
  intro result
  cases result with
  | ok value => exact relation.report _ nofun
  | error error => exact relation.bind (relation.report _ nofun) fun _ => relation.fail _

theorem commandStep (description line : String) :
    relates Unit (commandStep first description line) (commandStep second description line) :=
  relation.step description
    (relation.bind (relation.expectOkay line) fun _ => relation.pure ())

theorem downloadStep (name : String) (payload : ByteArray) :
    relates Unit (downloadStep first name payload) (downloadStep second name payload) :=
  relation.step _ (relation.download payload)

theorem showVariable (name label : String) :
    relates Unit (showVariable first name label) (showVariable second name label) := by
  refine relation.bind (relation.attempt (relation.expectOkay _)) ?_
  intro result
  cases result with
  | ok value => exact relation.report _ nofun
  | error error => exact relation.bind (relation.report _ nofun) fun _ => relation.fail _

theorem run (operation : Operation) :
    relates Unit (run first operation) (run second operation) := by
  cases operation with
  | flash partition image =>
      exact relation.bind (relation.downloadStep _ _) fun _ => relation.commandStep _ _
  | erase partition => exact relation.commandStep _ _
  | display name label => exact relation.showVariable _ _
  | notice message => exact relation.report _ nofun
  | command line message => exact relation.commandStep _ _
  | reboot => exact relation.commandStep _ _
  | rebootBootloader => exact relation.commandStep _ _
  | download tag payload => exact relation.downloadStep _ _

theorem runAll (operations : List Operation) :
    relates Unit (runAll first operations) (runAll second operations) := by
  induction operations with
  | nil => exact relation.pure ()
  | cons operation operations ih => exact relation.bind (relation.run operation) fun _ => ih

theorem execute (queue : Queue) : relates Unit (execute first queue) (execute second queue) :=
  relation.bind (relation.note _) fun _ =>
    relation.bind (relation.runAll queue.toList) fun _ => relation.report _ nofun

end ExecutionRelation

end Protocol

end FlashHost
