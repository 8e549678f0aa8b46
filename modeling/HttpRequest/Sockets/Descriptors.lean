import HttpRequest.Foundations.Ledger
import HttpRequest.Model.SocketOps

/-! # Who closes a descriptor

The objects of the socket classes own their descriptors: they are a ledger, and every operation on them makes
moves of it. What is closed is open and has no other owner. A `TSLSocket` that is destroyed while it still has
a descriptor forgets it; this is the only way to lose one (`balanced_iff`). -/

namespace HttpRequest

open Foundations

/-! ### What a method does to the descriptor of its object -/

/-- A method keeps account of the descriptor: what it closes and what is left make up what was there. -/
def Conserves {α : Type} (m : Method α) : Prop :=
  ∀ s, closed (m.run () s).events ++ (m.run () s).state.self.socket_.toList = s.self.socket_.toList

/-- What a concatenation of calls closes. -/
theorem closed_append (calls calls' : List Syscall) :
    closed (calls ++ calls') = closed calls ++ closed calls' := List.filterMap_append

namespace Conserves

variable {α β : Type} {m : Method α}

/-- Returning conserves the descriptor. -/
theorem pure (a : α) : Conserves (Pure.pure a) := fun _ => rfl

/-- Reading the state conserves it. -/
theorem state : Conserves Program.state := fun _ => rfl

/-- Stopping conserves it. -/
theorem stop (stop : Stop) : Conserves (Program.stop stop : Method α) := fun _ => rfl

/-- A call that closes nothing conserves it. -/
theorem emit {call : Syscall} (h : closed [call] = []) : Conserves (Program.emit call) := by
  intro s
  rw [Program.run_emit, h, List.nil_append]

/-- An update that leaves the member alone conserves it. -/
theorem update {f : MethodState → MethodState} (h : ∀ s, (f s).self.socket_ = s.self.socket_) :
    Conserves (Program.update f) := fun s => congrArg Option.toList (h s)

/-- A bind conserves it when its parts do. -/
theorem bind {f : α → Method β} (hm : Conserves m) (hf : ∀ a, Conserves (f a)) : Conserves (m >>= f) := by
  intro s
  have hs := hm s
  rw [Program.run_bind]
  generalize m.run () s = r at hs
  obtain ⟨o, t, es⟩ := r
  cases o with
  | error stop => exact hs
  | ok a =>
    rw [Run.andThen_ok, Run.prepend_events, Run.prepend_state, closed_append, List.append_assoc, hf a t]
    exact hs

/-- A branch conserves it when its sides do. -/
theorem ite {c : Prop} [Decidable c] {m' : Method α} (hm : Conserves m) (hm' : Conserves m') :
    Conserves (if c then m else m') := by
  by_cases h : c
  · rw [if_pos h]
    exact hm
  · rw [if_neg h]
    exact hm'

/-- `select` conserves it. -/
theorem select (type : SelectType) (timeout : Int) (reply : Option SelectReply) :
    Conserves (select type timeout reply) := by
  refine (emit (by rfl)).bind fun _ => ?_
  cases reply with
  | none => exact stop _
  | some reply =>
    refine (update fun _ => by rfl).bind fun _ => ?_
    cases reply.ret with
    | ready => exact pure _
    | timedOut => exact pure _
    | failed errno => exact pure _

/-- `ISocket::close` closes what it resets. -/
theorem iSocketClose : Conserves ISocket.close := by
  intro s
  unfold ISocket.close
  rw [Program.run_bind, Program.run_state, Run.andThen_ok]
  cases h : s.self.socket_ with
  | none =>
    show s.self.socket_.toList = _
    rw [h]
  | some fd => rfl

/-- Freeing the TLS session leaves the descriptor alone. -/
theorem resetSslPtr : Conserves resetSslPtr :=
  state.bind fun _ => ite ((emit (by rfl)).bind fun _ => update fun _ => by rfl) (pure _)

/-- `TSLSocket::close` closes what it resets. -/
theorem tSLSocketClose : Conserves TSLSocket.close := by
  refine bind ?_ fun _ => iSocketClose.bind fun _ => resetSslPtr
  exact state.bind fun _ => ite (emit (by rfl)) (pure _)

/-- So does `close` of either class. -/
theorem closeSocket : Conserves closeSocket := by
  refine state.bind fun s => ?_
  cases s.self.kind with
  | PlainSocket => exact iSocketClose
  | TSLSocket => exact tSLSocketClose

/-- `config` closes nothing, or through `close`. -/
theorem config (reply : ConfigReply) : Conserves (ISocket.config reply) := by
  refine state.bind fun s => ?_
  cases s.self.socket_ with
  | none => exact pure _
  | some fd =>
    refine bind ?_ fun _ => ite (closeSocket.bind fun _ => pure _) (pure _)
    refine (emit (by rfl)).bind fun _ => ite (pure _) ?_
    refine (emit (by rfl)).bind fun _ => ite (pure _) ?_
    refine (emit (by rfl)).bind fun _ => ?_
    exact ite (pure _) (pure _)

/-- Waiting for the connection closes nothing. -/
theorem checkConnectLoop (expiredTime : Int) (selects : List SelectReply) :
    Conserves (ISocket.checkConnectLoop expiredTime selects) := by
  induction selects with
  | nil => exact state.bind fun _ => ite (pure _) ((select _ _ _).bind fun _ => pure _)
  | cons reply selects ih =>
    exact state.bind fun _ => ite (pure _) ((select _ _ _).bind fun _ => ite ih (pure _))

/-- Nor does checking how it went. -/
theorem checkConnectResult (result : SocketResult) (timeout : Int) (script : ConnectScript) :
    Conserves (ISocket.checkConnectResult result timeout script) := by
  refine ite (pure _) (ite (pure _) (state.bind fun _ => bind ?_ fun _ =>
    (checkConnectLoop _ _).bind fun waited => ?_))
  · exact update fun _ => rfl
  cases waited with
  | none => exact pure _
  | some result =>
    refine (emit (by rfl)).bind fun _ => ?_
    cases script.getsockopt with
    | error errno => exact pure _
    | ok error => exact ite (pure _) (pure _)

/-- `ISocket::connect` conserves the descriptor. -/
theorem iSocketConnect (timeout : Int) (script : ConnectScript) :
    Conserves (ISocket.connect timeout script) := by
  refine state.bind fun _ => ?_
  cases script.address with
  | none => exact pure _
  | some family =>
    refine ite (pure _) ((config _).bind fun _ => ite (pure _) ((emit (by rfl)).bind fun _ => ?_))
    cases script.connect with
    | none => exact checkConnectResult _ _ _
    | some errno => exact checkConnectResult _ _ _

/-- **Connecting keeps account of the descriptor**, whether it closes it or not. -/
theorem connectSocketObject (timeout : Int) (script : TSLConnectScript) :
    Conserves (connectSocketObject timeout script) := by
  refine state.bind fun s => ?_
  cases s.self.kind with
  | PlainSocket => exact iSocketConnect _ _
  | TSLSocket =>
    refine (iSocketConnect _ _).bind fun _ => ite (pure _) (bind ?_ fun _ => ite (select _ _ _) (pure _))
    exact (emit (by rfl)).bind fun _ => ite (pure _) (ite (pure _) (pure _))

/-- A method that leaves no descriptor closes the one that was there. -/
theorem closed_eq (h : Conserves m) {s : MethodState} (hnone : (m.run () s).state.self.socket_ = none) :
    closed (m.run () s).events = s.self.socket_.toList := by
  have hs := h s
  rwa [hnone, Option.toList_none, List.append_nil] at hs

/-- A method that leaves the descriptor where it is closes nothing. -/
theorem closed_eq_nil (h : Conserves m) {s : MethodState}
    (hkept : (m.run () s).state.self.socket_ = s.self.socket_) : closed (m.run () s).events = [] := by
  have hs := h s
  rw [hkept] at hs
  exact List.append_left_eq_self.mp hs

/-- A method closes the descriptor, or leaves it. -/
theorem kept_or_none (h : Conserves m) (s : MethodState) :
    (m.run () s).state.self.socket_ = s.self.socket_ ∨ (m.run () s).state.self.socket_ = none := by
  have hs := h s
  cases hleft : (m.run () s).state.self.socket_ with
  | none => exact .inr rfl
  | some fd =>
    refine .inl ?_
    rw [hleft] at hs
    have hmem : fd ∈ s.self.socket_.toList := hs ▸ List.mem_append_right _ (List.mem_singleton_self fd)
    exact (Option.mem_toList.mp hmem).symm

end Conserves

/-- No descriptor is left behind `close()`. -/
theorem socket_closeSocket (s : MethodState) : (closeSocket.run () s).state.self.socket_ = none := by
  obtain ⟨⟨kind, ipVersion, fd, ssl⟩, now⟩ := s
  cases kind <;> cases fd <;> cases ssl <;> rfl

/-- The destructor of a `PlainSocket` leaves no descriptor; that of a `TSLSocket` leaves the one there is. -/
theorem socket_destroySocket (s : MethodState) : (destroySocket.run () s).state.self.socket_ =
    match s.self.kind with
    | .PlainSocket => none
    | .TSLSocket => s.self.socket_ := by
  obtain ⟨⟨kind, ipVersion, fd, ssl⟩, now⟩ := s
  cases kind <;> cases fd <;> cases ssl <;> rfl

/-- A destructor conserves the descriptor. -/
theorem conserves_destroySocket : Conserves destroySocket := by
  refine Conserves.state.bind fun s => ?_
  cases s.self.kind with
  | PlainSocket => exact Conserves.iSocketClose
  | TSLSocket => exact Conserves.resetSslPtr

/-! ### The objects as a ledger -/

namespace SocketSystem

variable {ι : Type} {s : SocketSystem ι} {self rhs : ι} {object : ISocket}

/-- Who holds which descriptor. -/
def ledger (s : SocketSystem ι) : Ledger ι Nat := ⟨fun i => (s.objects i).bind ISocket.socket_, s.descriptors⟩

/-- An object holds its own descriptor. -/
theorem holds_of_objects (h : s.objects self = some object) : s.ledger.holds self = object.socket_ := by
  show (s.objects self).bind ISocket.socket_ = _
  rw [h]
  rfl

/-- The object an operation destroys. -/
def destroys [DecidableEq ι] (s : SocketSystem ι) : SocketOp ι → Option ι
  | .destroy self => if s.socket_ = some self then none else some self
  | .store socketPtr => if s.canStore socketPtr then s.socket_ else none
  | _ => none

/-- An operation that destroys a `TSLSocket` only when it has no descriptor. -/
def ClosesFirst [DecidableEq ι] (s : SocketSystem ι) (op : SocketOp ι) : Prop :=
  ∀ self object, s.destroys op = some self → s.objects self = some object → object.kind = .TSLSocket →
    object.socket_ = none

/-- What is closed was open, is closed once, and belongs to no other object. -/
structure ClosedSoundly (s : SocketSystem ι) (closings : List (ι × Nat)) : Prop where
  nodup : (closings.map Prod.snd).Nodup
  opened : ∀ closing ∈ closings, closing.2 ∈ s.descriptors
  owned : ∀ closing ∈ closings, ∀ other object, s.objects other = some object →
    object.socket_ = some closing.2 → other = closing.1

/-- How an operation moves the ledger: properly, closing what its objects hold, and forgetting the descriptor
of a `TSLSocket` that is destroyed. -/
structure Moves [DecidableEq ι] (s : SocketSystem ι) (op : SocketOp ι) (next : SocketSystem ι)
    (closings : List (ι × Nat)) (ms : List (Ledger.Move ι Nat)) : Prop where
  proper : s.ledger.ProperRun ms
  after : next.ledger = s.ledger.after ms
  closes : closings = [] ∨ ∃ self fd, closings = [(self, fd)] ∧ s.ledger.holds self = some fd
  forgets : ∀ fd, s.ledger.ForgetsRun fd ms ↔
    ∃ self object, s.destroys op = some self ∧ s.objects self = some object ∧ object.kind = .TSLSocket ∧
      object.socket_ = some fd

variable [DecidableEq ι] {op : SocketOp ι}

/-- An operation that destroys nothing, and moves that forget nothing. -/
theorem Moves.of_kept {next : SocketSystem ι} {closings : List (ι × Nat)} {ms : List (Ledger.Move ι Nat)}
    (hdestroys : s.destroys op = none) (hproper : s.ledger.ProperRun ms)
    (hafter : next.ledger = s.ledger.after ms)
    (hcloses : closings = [] ∨ ∃ self fd, closings = [(self, fd)] ∧ s.ledger.holds self = some fd)
    (hforgets : ∀ fd, ¬s.ledger.ForgetsRun fd ms) : Moves s op next closings ms := by
  refine ⟨hproper, hafter, hcloses, fun fd => iff_of_false (hforgets fd) ?_⟩
  rintro ⟨_, _, hsome, -⟩
  rw [hdestroys] at hsome
  cases hsome

/-- An operation that does nothing. -/
theorem moves_nil (h : s.destroys op = none) : Moves s op s [] [] :=
  .of_kept h trivial rfl (.inl rfl) fun _ => id

/-- What the objects hold after one of them has been given other members. -/
theorem holds_update (objects : ι → Option ISocket) (self : ι) (object : Option ISocket) :
    (fun i => (Function.update objects self object i).bind ISocket.socket_) =
      Function.update (fun i => (objects i).bind ISocket.socket_) self (object.bind ISocket.socket_) := by
  funext i
  simp only [Function.update_apply]
  split <;> rfl

/-- The ledger after an object has been given other members. -/
theorem ledger_update (objects : ι → Option ISocket) (held : Option ι) (descriptors : Finset Nat)
    (object : Option ISocket) :
    (SocketSystem.ledger ⟨Function.update objects self object, held, descriptors⟩) =
      ⟨Function.update (fun i => (objects i).bind ISocket.socket_) self (object.bind ISocket.socket_),
        descriptors⟩ := by
  rw [ledger, holds_update]

/-- A method that leaves the descriptor where it is. -/
theorem call_kept (hobject : s.objects self = some object) {α : Type} {m : Method α} (hm : Conserves m)
    (now : UInt64) (hkept : (m.run () ⟨object, now⟩).state.self.socket_ = object.socket_) :
    (s.call self object now m).1.ledger = s.ledger ∧ (s.call self object now m).2 = [] := by
  have hclosed := hm.closed_eq_nil hkept
  have hholds := holds_of_objects hobject
  unfold call
  dsimp only
  rw [ledger_update, hclosed, Option.bind_some, hkept, ← hholds]
  refine ⟨?_, rfl⟩
  show Ledger.mk (Function.update s.ledger.holds self (s.ledger.holds self)) (s.descriptors \ ∅) = s.ledger
  rw [Function.update_eq_self, Finset.sdiff_empty]
  rfl

/-- A method that leaves no descriptor. -/
theorem call_released (hobject : s.objects self = some object) {α : Type} {m : Method α}
    (hm : Conserves m) (now : UInt64) (hnone : (m.run () ⟨object, now⟩).state.self.socket_ = none) :
    (s.call self object now m).1.ledger = s.ledger.apply (.release self) ∧
      (s.call self object now m).2 = object.socket_.toList.map fun fd => (self, fd) := by
  have hclosed := hm.closed_eq hnone
  have hholds := holds_of_objects hobject
  unfold call
  dsimp only
  rw [ledger_update, hclosed, Option.bind_some, hnone, Ledger.apply, hholds]
  refine ⟨?_, rfl⟩
  cases object.socket_ <;> rfl

omit [DecidableEq ι] in
/-- What an object holds is closed at most once. -/
theorem closes_of_toList (hobject : s.objects self = some object) :
    (object.socket_.toList.map fun fd => (self, fd)) = [] ∨
      ∃ self' fd, (object.socket_.toList.map fun fd => (self, fd)) = [(self', fd)] ∧
        s.ledger.holds self' = some fd := by
  have hholds := holds_of_objects hobject
  cases hfd : object.socket_ with
  | none => exact .inl rfl
  | some fd => exact .inr ⟨self, fd, rfl, hholds.trans hfd⟩

/-- A method that keeps account of the descriptor. -/
theorem moves_call (hdestroys : s.destroys op = none) (hobject : s.objects self = some object) {α : Type}
    {m : Method α} (hm : Conserves m) (now : UInt64) :
    ∃ ms, Moves s op (s.call self object now m).1 (s.call self object now m).2 ms := by
  rcases hm.kept_or_none ⟨object, now⟩ with hkept | hnone
  · obtain ⟨hledger, hclosings⟩ := call_kept hobject hm now hkept
    exact ⟨[], .of_kept hdestroys trivial hledger (.inl hclosings) fun _ => id⟩
  · obtain ⟨hledger, hclosings⟩ := call_released hobject hm now hnone
    exact ⟨[.release self], .of_kept hdestroys ⟨trivial, trivial⟩ hledger
      (hclosings ▸ closes_of_toList hobject) fun _ h => h.elim id id⟩

/-- A constructor. -/
theorem moves_construct (self : ι) (kind : SocketKind) (ipVersion : IPVersion) (fd : Option Nat) (ssl : Bool) :
    ∃ ms, Moves s (.construct self kind ipVersion fd ssl) (s.step (.construct self kind ipVersion fd ssl)).1
      (s.step (.construct self kind ipVersion fd ssl)).2 ms := by
  unfold step
  dsimp only
  split
  · next happlies =>
    rw [Bool.and_eq_true, Option.isNone_iff_eq_none] at happlies
    obtain ⟨hnone, hfresh⟩ := happlies
    have hholds : s.ledger.holds self = none := by
      unfold ledger
      dsimp only
      rw [hnone, Option.bind_none]
    cases fd with
    | none =>
      -- without a descriptor the object holds nothing, as before
      refine ⟨[], .of_kept rfl trivial ?_ (.inl rfl) fun _ => id⟩
      rw [ledger_update]
      show Ledger.mk (Function.update s.ledger.holds self none) (∅ ∪ s.ledger.opened) = s.ledger
      rw [← hholds, Function.update_eq_self, Finset.empty_union]
    | some fd =>
      -- the descriptor is a new one, and the object acquires it
      have hfresh : fd ∉ s.ledger.opened := of_decide_eq_true hfresh
      refine ⟨[.acquire self fd], .of_kept rfl ⟨⟨hholds, hfresh⟩, trivial⟩ ?_ (.inl rfl) fun _ h =>
        h.elim id id⟩
      rw [ledger_update]
      show Ledger.mk _ ({fd} ∪ s.descriptors) = Ledger.mk _ (insert fd s.descriptors)
      rw [Finset.insert_eq]
      rfl
  · exact ⟨[], moves_nil rfl⟩

/-- A move of an object into a new one. -/
theorem moves_moveConstruct (self rhs : ι) :
    ∃ ms, Moves s (.moveConstruct self rhs) (s.step (.moveConstruct self rhs)).1
      (s.step (.moveConstruct self rhs)).2 ms := by
  unfold step
  dsimp only
  split
  · next other hself hrhs =>
    have hholds : s.ledger.holds self = none := by
      unfold ledger
      dsimp only
      rw [hself, Option.bind_none]
    refine ⟨[.transfer rhs self], .of_kept rfl ⟨hholds, trivial⟩ ?_ (.inl rfl) fun _ h => h.elim id id⟩
    rw [ledger_update, holds_update]
    show _ = Ledger.mk (Function.update (Function.update s.ledger.holds rhs none) self
      (s.ledger.holds rhs)) s.descriptors
    rw [holds_of_objects hrhs]
    rfl
  · exact ⟨[], moves_nil rfl⟩

/-- A move of an object into another one, which closes its descriptor first. -/
theorem moves_moveAssign (self rhs : ι) :
    ∃ ms, Moves s (.moveAssign self rhs) (s.step (.moveAssign self rhs)).1
      (s.step (.moveAssign self rhs)).2 ms := by
  unfold step
  dsimp only
  split
  · next object other hself hrhs =>
    split
    · exact ⟨[], moves_nil rfl⟩
    · next hne =>
      rw [not_or] at hne
      -- the handle of `self` is closed before that of `rhs` is taken over
      obtain ⟨hledger, hclosings⟩ := call_released hself Conserves.closeSocket 0 (socket_closeSocket _)
      refine ⟨[.release self, .transfer rhs self], .of_kept rfl ⟨trivial, ?_, trivial⟩ ?_ ?_ ?_⟩
      · show Function.update s.ledger.holds self none self = none
        rw [Function.update_self]
      · rw [ledger_update, holds_update]
        show _ = (s.ledger.apply (.release self)).apply (.transfer rhs self)
        rw [← hledger, Ledger.apply]
        have hrhs' : (s.call self object 0 closeSocket).1.ledger.holds rhs = other.socket_ := by
          rw [hledger, ← holds_of_objects hrhs]
          exact Function.update_of_ne (Ne.symm hne.1) _ _
        rw [hrhs']
        rfl
      · rw [hclosings]
        exact closes_of_toList hself
      · exact fun _ h => h.elim id fun h => h.elim id id
  · exact ⟨[], moves_nil rfl⟩

/-- Freeing an object: a `PlainSocket` releases its descriptor, a `TSLSocket` forgets it. -/
theorem moves_free (hdestroys : s.destroys op = some self) :
    ∃ ms, Moves s op (s.free self).1 (s.free self).2 ms := by
  unfold free
  split
  · next hnone =>
    refine ⟨[], trivial, rfl, .inl rfl, fun fd => iff_of_false id ?_⟩
    rintro ⟨_, _, hsome, hobject, -⟩
    rw [hdestroys] at hsome
    cases hsome
    rw [hnone] at hobject
    cases hobject
  · next object hobject =>
    dsimp only
    have hleft := socket_destroySocket ⟨object, 0⟩
    -- of the two destructors one closes the handle, the other only forgets it
    cases hkind : object.kind with
    | PlainSocket =>
      rw [hkind] at hleft
      obtain ⟨hledger, hclosings⟩ := call_released hobject conserves_destroySocket 0 hleft
      refine ⟨[.release self], ⟨trivial, trivial⟩, ?_, ?_, fun fd => iff_of_false (fun h => h.elim id id) ?_⟩
      · rw [ledger_update]
        show Ledger.mk (Function.update (s.call self object 0 destroySocket).1.ledger.holds self none)
          (s.call self object 0 destroySocket).1.ledger.opened = s.ledger.apply (.release self)
        rw [hledger]
        exact congrArg (Ledger.mk · _) (Function.update_idem ..)
      · rw [hclosings]
        exact closes_of_toList hobject
      · rintro ⟨_, _, hsome, hobject', htsl, -⟩
        rw [hdestroys] at hsome
        cases hsome
        rw [hobject] at hobject'
        cases hobject'
        rw [hkind] at htsl
        cases htsl
    | TSLSocket =>
      rw [hkind] at hleft
      obtain ⟨hledger, hclosings⟩ := call_kept hobject conserves_destroySocket 0 hleft
      refine ⟨[.forget self], ⟨trivial, trivial⟩, ?_, .inl hclosings, fun fd => ?_⟩
      · rw [ledger_update]
        show Ledger.mk (Function.update (s.call self object 0 destroySocket).1.ledger.holds self none)
          (s.call self object 0 destroySocket).1.ledger.opened = s.ledger.apply (.forget self)
        rw [hledger]
        rfl
      · have hholds := holds_of_objects hobject
        constructor
        · rintro (hforgets | hforgets)
          · exact ⟨self, object, hdestroys, hobject, hkind, hholds.symm.trans hforgets⟩
          · exact absurd hforgets id
        · rintro ⟨_, _, hsome, hobject', -, hfd⟩
          rw [hdestroys] at hsome
          cases hsome
          rw [hobject] at hobject'
          cases hobject'
          exact .inl (hholds.trans hfd)

/-- **Every operation moves the ledger.** -/
theorem moves_step (s : SocketSystem ι) (op : SocketOp ι) :
    ∃ ms, Moves s op (s.step op).1 (s.step op).2 ms := by
  cases op with
  | construct self kind ipVersion fd ssl => exact moves_construct self kind ipVersion fd ssl
  | moveConstruct self rhs => exact moves_moveConstruct self rhs
  | moveAssign self rhs => exact moves_moveAssign self rhs
  | connect self timeout script now =>
    unfold step
    dsimp only
    split
    · exact ⟨[], moves_nil rfl⟩
    · next hobject => exact moves_call rfl hobject (Conserves.connectSocketObject _ _) now
  | close self =>
    unfold step
    dsimp only
    split
    · exact ⟨[], moves_nil rfl⟩
    · next hobject => exact moves_call rfl hobject Conserves.closeSocket 0
  | destroy self =>
    unfold step
    dsimp only
    split
    · next hheld => exact ⟨[], moves_nil (if_pos hheld)⟩
    · next hheld => exact moves_free (if_neg hheld)
  | store socketPtr =>
    unfold step
    dsimp only
    split
    · next hstore =>
      have hdestroys : s.destroys (.store socketPtr) = s.socket_ := if_pos hstore
      cases hheld : s.socket_ with
      | none =>
        obtain ⟨hproper, hafter, hcloses, hforgets⟩ := moves_nil (hdestroys.trans hheld)
        exact ⟨[], hproper, hafter, hcloses, hforgets⟩
      | some held =>
        obtain ⟨ms, hproper, hafter, hcloses, hforgets⟩ := moves_free (hdestroys.trans hheld)
        exact ⟨ms, hproper, hafter, hcloses, hforgets⟩
    · next hstore => exact ⟨[], moves_nil (if_neg hstore)⟩

/-! ### Runs -/

/-- What is closed along a run is closed soundly. -/
def ClosesSoundly : SocketSystem ι → List (SocketOp ι) → Prop
  | _, [] => True
  | s, op :: ops => ClosedSoundly s (s.step op).2 ∧ ClosesSoundly (s.step op).1 ops

/-- A run that destroys a `TSLSocket` only when it has no descriptor. -/
def ClosesFirstRun : SocketSystem ι → List (SocketOp ι) → Prop
  | _, [] => True
  | s, op :: ops => s.ClosesFirst op ∧ ClosesFirstRun (s.step op).1 ops

/-- An exclusive ledger closes soundly what its objects hold. -/
theorem closedSoundly_of_moves (h : s.ledger.Exclusive) {next : SocketSystem ι} {closings : List (ι × Nat)}
    {ms : List (Ledger.Move ι Nat)} (hmoves : Moves s op next closings ms) : ClosedSoundly s closings := by
  rcases hmoves.closes with rfl | ⟨self, fd, rfl, hholds⟩
  · exact ⟨List.nodup_nil, fun _ h => absurd h List.not_mem_nil, fun _ h => absurd h List.not_mem_nil⟩
  · refine ⟨List.nodup_singleton fd, fun closing hmem => ?_, fun closing hmem other object hobject hfd => ?_⟩
    · rw [List.mem_singleton.mp hmem]
      exact h.opened self fd hholds
    · rw [List.mem_singleton.mp hmem] at hfd ⊢
      exact h.unique other self fd ((holds_of_objects hobject).trans hfd) hholds

/-- **No run closes a descriptor that is not open or belongs to another object.** -/
theorem closesSoundly (ops : List (SocketOp ι)) (h : s.ledger.Exclusive) : ClosesSoundly s ops := by
  induction ops generalizing s with
  | nil => trivial
  | cons op ops ih =>
    obtain ⟨ms, hmoves⟩ := moves_step s op
    exact ⟨closedSoundly_of_moves h hmoves, ih (hmoves.after ▸ h.after hmoves.proper)⟩

/-- **A run loses a descriptor exactly when it destroys a `TSLSocket` that has one.** -/
theorem exists_lost_iff (ops : List (SocketOp ι)) (h : s.ledger.Exclusive) :
    (∃ fd, (s.run ops).ledger.Lost fd) ↔ (∃ fd, s.ledger.Lost fd) ∨ ¬ClosesFirstRun s ops := by
  induction ops generalizing s with
  | nil => exact ⟨.inl, fun h => h.elim id fun hnot => absurd trivial hnot⟩
  | cons op ops ih =>
    obtain ⟨ms, hmoves⟩ := moves_step s op
    have hnext : (s.step op).1.ledger.Exclusive := hmoves.after ▸ h.after hmoves.proper
    have hlost : (∃ fd, (s.step op).1.ledger.Lost fd) ↔
        (∃ fd, s.ledger.Lost fd) ∨ ¬s.ClosesFirst op := by
      simp only [hmoves.after, Ledger.lost_after_iff h hmoves.proper, hmoves.forgets, exists_or]
      refine or_congr Iff.rfl ?_
      unfold ClosesFirst
      push Not
      constructor
      · rintro ⟨fd, self, object, hdestroys, hobject, hkind, hfd⟩
        exact ⟨self, object, hdestroys, hobject, hkind, by simp [hfd]⟩
      · rintro ⟨self, object, hdestroys, hobject, hkind, hfd⟩
        obtain ⟨fd, hfd⟩ := Option.ne_none_iff_exists'.mp hfd
        exact ⟨fd, self, object, hdestroys, hobject, hkind, hfd⟩
    have hrest := ih hnext
    rw [hlost, or_assoc, ← not_and_or] at hrest
    exact hrest

/-- **Each descriptor is closed exactly once**: never twice or while another object owns it, and once every
object has been destroyed none is open. -/
def Balanced (ops : List (SocketOp ι)) : Prop :=
  ClosesSoundly start ops ∧ ((∀ i, ((start : SocketSystem ι).run ops).objects i = none) →
    ((start : SocketSystem ι).run ops).descriptors = ∅)

/-- **Each descriptor is closed exactly once precisely when no `TSLSocket` is destroyed while it has one**, as
far as every object has been destroyed in the end. -/
theorem balanced_iff (ops : List (SocketOp ι)) :
    Balanced ops ↔ ((∀ i, ((start : SocketSystem ι).run ops).objects i = none) →
      ClosesFirstRun (start : SocketSystem ι) ops) := by
  have hstart : (start : SocketSystem ι).ledger.Exclusive := Ledger.exclusive_empty
  have hlost := exists_lost_iff ops hstart
  rw [or_iff_right fun ⟨fd, h⟩ => Ledger.not_lost_empty fd h] at hlost
  unfold Balanced
  rw [and_iff_right (closesSoundly ops hstart)]
  refine imp_congr_right fun hnone => ?_
  have hnobody (i : ι) : ((start : SocketSystem ι).run ops).ledger.holds i = none := by
    unfold ledger
    dsimp only
    rw [hnone i, Option.bind_none]
  simp only [Ledger.lost_iff_of_none hnobody] at hlost
  rw [← not_iff_not, ← hlost]
  exact Finset.nonempty_iff_ne_empty.symm

/-- A redirect that replaces one `TSLSocket` by another, and the end of the request: two descriptors stay
open without an owner. With one `PlainSocket` behind the other nothing is left. -/
theorem not_balanced_redirect :
    ¬Balanced
        ([.construct 0 .TSLSocket .V4 (some 3) true, .store (some 0),
          .construct 1 .TSLSocket .V4 (some 4) true, .store (some 1), .store none] :
          List (SocketOp (Fin 2))) ∧
      ((start : SocketSystem (Fin 2)).run
        [.construct 0 .TSLSocket .V4 (some 3) true, .store (some 0),
          .construct 1 .TSLSocket .V4 (some 4) true, .store (some 1), .store none]).descriptors = {3, 4} ∧
      ((start : SocketSystem (Fin 2)).run
        [.construct 0 .PlainSocket .V4 (some 3) true, .store (some 0),
          .construct 1 .PlainSocket .V4 (some 4) true, .store (some 1), .store none]).descriptors = ∅ := by
  refine ⟨fun h => ?_, by decide, by decide⟩
  have hempty := h.2 (by decide)
  revert hempty
  decide

end SocketSystem

end HttpRequest
