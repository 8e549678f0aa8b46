import HttpRequest.Receiver.Transcript

/-! # Handing over to `redirect`

The receiver, and with it all of `sendRequest`, makes one call that does not come back into it: the
call of `redirect`. The marker `handOver` stands for it. This file proves that the receiver with some
`redirect` is the receiver with the marker, followed by that `redirect` where the marker was reached
(`receiver_resumes`), and that a run that does not reach the marker is the same with every
`redirect`. -/

namespace HttpRequest

open Foundations

/-! ### Programs that hand over nothing -/

/-- A stop other than at the marker of a redirect. -/
def Stop.Other (stop : Stop) (_ : State) : Prop := ∀ url, stop ≠ .redirect url

/-- A program that does not stop at the marker of a redirect. -/
def Closed {α : Type} (m : Worker α) : Prop :=
  Program.Keeps (fun _ => True) Stop.Other (fun _ => True) m

/-- The trivial invariant lasts. -/
theorem lasting_true : Lasting fun _ => True :=
  ⟨⟨fun _ _ => trivial, fun _ _ _ => trivial⟩, fun _ _ _ => trivial⟩

/-- Faults and waits are no hand-over. -/
theorem tolerates_other {I : State → Prop} : Tolerates I Stop.Other :=
  ⟨fun _ _ _ => Stop.noConfusion, fun _ _ _ _ => Stop.noConfusion⟩

/-- Every routine event is allowed. -/
theorem routine_true (e : Event) (_ : e.Routine) : True := trivial

namespace Closed

variable {α β : Type}

/-- Returning hands over nothing. -/
theorem pure (a : α) : Closed (Pure.pure a) := Program.Keeps.pure a

/-- A bind hands over nothing when its parts do not. -/
theorem bind {m : Worker α} {f : α → Worker β} (hm : Closed m) (hf : ∀ a, Closed (f a)) :
    Closed (m >>= f) := Program.Keeps.bind hm hf

/-- Reading the state hands over nothing. -/
theorem state : Closed Program.state := Program.Keeps.state

/-- A fault is no hand-over. -/
theorem fault (fault : Fault) : Closed (Program.stop (.fault fault) : Worker α) :=
  .stop (tolerates_other.fault fault)

/-- `disconnected` hands over nothing. -/
theorem disconnected : Closed disconnected := lasting_true.disconnected routine_true

/-- `handleErrorResponse` hands over nothing. -/
theorem handleErrorResponse (code : ResultCode) (errorCode : Int) :
    Closed (handleErrorResponse code errorCode) :=
  lasting_true.handleErrorResponse routine_true code errorCode

/-- A call through the socket hands over nothing. -/
theorem callSocket {call : Call} (hcall : Event.Routine (.call call)) : Closed (callSocket call) :=
  lasting_true.callSocket routine_true tolerates_other hcall

/-- A return hands over nothing. -/
theorem returnAt (now : UInt64) : Closed (returnAt now) :=
  lasting_true.returnAt routine_true now

/-- Handing the head to the caller is no hand-over. -/
theorem announce (header : Option ResponseHeader) : Closed (announce header) :=
  lasting_true.announce routine_true header

/-- Nor is handing over the body's bytes. -/
theorem deliver (data : List Bytes) : Closed (deliver data) :=
  lasting_true.deliver routine_true data

/-- The wait for data hands over nothing. -/
theorem isReceivable (waits : List WaitReply) : Closed (isReceivable waits) :=
  lasting_true.isReceivable routine_true tolerates_other waits

/-- `send` hands over nothing. -/
theorem send (canSend : WaitReply) (sends : List SendReply) : Closed (send canSend sends) :=
  (lasting_true.send routine_true tolerates_other lasting_true tolerates_other
    (fun _ _ _ => trivial) canSend sends).conseq (fun _ h => h) (fun _ _ _ => trivial)
      (fun _ _ h => h) fun _ h => h

/-- Opening a connection hands over nothing. -/
theorem openConnection (connection : Connection) : Closed (openConnection connection) :=
  lasting_true.openConnection routine_true tolerates_other connection (fun _ _ _ => trivial)
    fun _ => trivial

end Closed

/-! ### Rules for the receiver -/

section

variable {I : State → Prop} {E : Stop → State → Prop} {p : Event → Prop} (h : Lasting I)
  (hp : ∀ e, Event.Routine e → p e) (hE : Tolerates I E)
  (hredirect : ∀ url s, I s → E (.redirect url) s)

include h hp hE hredirect

/-- The end of a reaction keeps what lasts. -/
theorem Lasting.perform (exit : Exit) : Program.Keeps I E p (exit.perform handOver) := by
  cases exit with
  | more phase => exact .pure _
  | finished => exact (h.disconnected hp).bind fun _ => .pure _
  | failed code errorCode => exact (h.handleErrorResponse hp _ _).bind fun _ => .pure _
  | redirected url => exact Program.Keeps.bind (.stop (hredirect url)) fun _ => .pure _
  | crashed fault => exact .stop (hE.fault fault)

/-- The receiver keeps what lasts, pass by pass. -/
theorem Lasting.receiver (rounds : List Round) :
    ∀ phase, Program.Keeps I E p (receiver handOver rounds phase) := by
  induction rounds with
  | nil => exact fun phase => (h.isReceivable hp hE _).bind fun _ => .pure _
  | cons round rounds ih =>
    intro phase
    refine (h.isReceivable hp hE _).bind fun _ => .ite (.pure _) ?_
    refine Program.Keeps.bind ?_ fun next => ?_
    · refine (h.callSocket hp hE .receive).bind fun _ => (h.returnAt hp _).bind fun _ =>
        .bind .state fun _ => ?_
      exact (h.announce hp _).bind fun _ => (h.deliver hp _).bind fun _ =>
        h.perform hp hE hredirect _
    · cases next with
      | none => exact .pure _
      | some phase => exact ih phase

end

/-- **Rule for an exchange.** What lasts holds up to `send`, and from there on of the headers that
`htmlEncode` left, also where the exchange hands over. -/
theorem Lasting.exchange {I I' : State → Prop} {E : Stop → State → Prop} {p : Event → Prop}
    (h : Lasting I) (h' : Lasting I') (hp : ∀ e, Event.Routine e → p e) (hE : Tolerates I E)
    (hE' : Tolerates I' E) (hredirect : ∀ url s, I' s → E (.redirect url) s)
    (hinfo : ∀ order s, I s → I' { s with info_ := (htmlEncode order s.info_ s.url_).2 })
    (hlookup : ∀ host port ipVersion, p (.call (.getaddrinfo host port ipVersion)))
    (hnew : ∀ socket, p (.call (.newSocket socket))) (connection : Connection) :
    Program.Triple I (exchange connection) (fun _ s => I s ∨ I' s) E p := by
  refine Program.Triple.bind (h.openConnection hp hE connection hlookup hnew) fun isOpen => ?_
  refine .ite (.pure fun _ hs => .inl hs) ?_
  refine Program.Triple.bind (h.send hp hE h' hE' hinfo _ _) fun sent => ?_
  cases sent with
  | false => exact .pure fun _ hs => hs.symm.imp (fun hs => hs.2) id
  | true =>
    rw [Bool.not_true, if_neg Bool.false_ne_true, receive_eq_receiver]
    refine (h'.receiver hp hE' hredirect _ _).conseq ?_ (fun _ _ hs => .inr hs) (fun _ _ he => he)
      fun _ he => he
    rintro s (hs | ⟨hsent, -⟩)
    · exact hs
    · cases hsent

/-! ### What follows a hand-over -/

/-- The program that follows where another one stopped at the marker. -/
def followUp {α : Type} (callee : Bytes → Worker α) : Stop → Option (Worker α)
  | .redirect url => some (callee url)
  | _ => none

/-- A program that hands over nothing is followed by nothing. -/
theorem Closed.followUp {α β : Type} {m : Worker α} (h : Closed m) (callee : Bytes → Worker β) :
    Program.Triple (fun _ => True) m (fun _ _ => True) (fun stop _ => followUp callee stop = none)
      fun _ => True := by
  have htriple : Program.Triple (fun _ => True) m (fun _ _ => True) Stop.Other fun _ => True := h
  refine htriple.conseq (fun _ h => h) (fun _ _ h => h) (fun stop _ hother => ?_) fun _ h => h
  cases stop with
  | redirect url => exact absurd rfl (hother url)
  | fault f => rfl
  | pending => rfl

/-- The end of a reaction goes on at the marker as it does with `redirect` in its place. -/
theorem perform_resumes (redirect : Bytes → Worker Unit) (exit : Exit) :
    Program.Resumes (followUp fun url => do redirect url; pure none) (exit.perform handOver)
      (exit.perform redirect) := by
  cases exit with
  | more phase => exact .refl ((Closed.pure _).followUp _)
  | finished => exact .refl ((Closed.disconnected.bind fun _ => .pure _).followUp _)
  | failed code errorCode =>
    exact .refl (((Closed.handleErrorResponse _ _).bind fun _ => .pure _).followUp _)
  | redirected url => exact Program.Resumes.stop rfl
  | crashed fault => exact .refl ((Closed.fault _).followUp _)

/-- So does a pass of the receiver. -/
theorem receiverPass_resumes (redirect : Bytes → Worker Unit) (phase : Phase)
    (reply : ReceiveReply) :
    Program.Resumes (followUp fun url => do redirect url; pure none)
      (receiverPass handOver phase reply) (receiverPass redirect phase reply) := by
  refine .bind_left ((Closed.callSocket .receive).followUp _) fun _ => ?_
  refine .bind_left ((Closed.returnAt _).followUp _) fun _ => ?_
  refine .bind_left (Closed.state.followUp _) fun _ => ?_
  refine .bind_left ((Closed.announce _).followUp _) fun _ => ?_
  exact .bind_left ((Closed.deliver _).followUp _) fun _ => perform_resumes redirect _

/-- So does the receiver, by induction on the script. -/
theorem receiver_resumes (redirect : Bytes → Worker Unit) (rounds : List Round) :
    ∀ phase, Program.Resumes (followUp redirect) (receiver handOver rounds phase)
      (receiver redirect rounds phase) := by
  induction rounds with
  | nil =>
    exact fun phase => .refl (((Closed.isReceivable _).bind fun _ => .pure _).followUp _)
  | cons round rounds ih =>
    intro phase
    rw [receiver, receiver]
    -- nothing in `isReceivable` follows a redirect
    refine .bind_left ((Closed.isReceivable _).followUp _) fun receivable => ?_
    cases receivable with
    | false =>
      rw [Bool.not_false, if_pos rfl, if_pos rfl]
      exact .refl ((Closed.pure _).followUp _)
    | true =>
      rw [if_neg (by decide), if_neg (by decide)]
      refine .bind (receiverPass_resumes redirect phase round.reply) ?_ ?_
      · intro next
        cases next with
        | none => exact .refl ((Closed.pure _).followUp _)
        | some phase => exact ih phase
      · -- behind the hand-over the loop only returns
        intro stop
        cases stop with
        | redirect url =>
          simp only [followUp, Option.map_some, bind_assoc, pure_bind]
          exact congrArg some (bind_pure _).symm
        | fault f => rfl
        | pending => rfl

/-- A `receive` that does not reach the marker is the same with every `redirect`. -/
theorem run_receive_of_closed (redirect : Bytes → Worker Unit) (rounds : List Round) {env : Env}
    {s : State}
    (h : ∀ url, ((receive handOver rounds).run env s).outcome ≠ .error (.redirect url)) :
    (receive redirect rounds).run env s = (receive handOver rounds).run env s := by
  have hresume : Program.Resumes (followUp redirect) (receive handOver rounds)
      (receive redirect rounds) := by
    rw [receive_eq_receiver, receive_eq_receiver]
    exact receiver_resumes redirect rounds _
  refine hresume.run_of_none fun stop hstop => ?_
  cases stop with
  | redirect url => exact absurd hstop (h url)
  | fault f => rfl
  | pending => rfl

end HttpRequest
