import HttpRequest.Model.Sockets

/-! # Programs of sockets

The objects of the socket classes over their lifetimes, beside the set of open descriptors that the system
keeps for them. One of the objects may be held by `Request::socket_`, which frees it when it gets another.
An operation that does not apply, because an object does not exist or exists already, because the class of an
object does not fit, or because the system does not hand out a descriptor that is open, does nothing. -/

namespace HttpRequest

open Foundations

/-- The objects of a program by their names, the one `Request::socket_` holds, and the open descriptors. -/
structure SocketSystem (ι : Type) where
  objects : ι → Option ISocket
  socket_ : Option ι
  descriptors : Finset Nat

/-- An operation on the objects of a program. -/
inductive SocketOp (ι : Type)
  /-- A constructor, with what `socket` returned and whether `SSL_new` succeeded. -/
  | construct (self : ι) (kind : SocketKind) (ipVersion : IPVersion) (fd : Option Nat) (ssl : Bool)
  | moveConstruct (self rhs : ι)
  | moveAssign (self rhs : ι)
  | connect (self : ι) (timeout : Int) (script : TSLConnectScript) (now : UInt64)
  | close (self : ι)
  /-- The end of the lifetime of an object, or `freeSocket`. -/
  | destroy (self : ι)
  /-- `socket_` of the request gets another object, or none. -/
  | store (socketPtr : Option ι)

/-- The descriptors that are closed by some calls. -/
def closed (calls : List Syscall) : List Nat :=
  calls.filterMap fun
    | .close fd => some fd
    | _ => none

namespace SocketSystem

variable {ι : Type} [DecidableEq ι] {α : Type}

/-- No object exists, and nothing is open. -/
def start : SocketSystem ι := ⟨fun _ => none, none, ∅⟩

/-- The system after a method of an object, and the descriptors the method closes. -/
def call (s : SocketSystem ι) (self : ι) (object : ISocket) (now : UInt64) (m : Method α) :
    SocketSystem ι × List (ι × Nat) :=
  let r := m.run () ⟨object, now⟩
  ({ s with
      objects := Function.update s.objects self (some r.state.self)
      descriptors := s.descriptors \ (closed r.events).toFinset },
    (closed r.events).map fun fd => (self, fd))

/-- The system after the destructor of an object. -/
def free (s : SocketSystem ι) (self : ι) : SocketSystem ι × List (ι × Nat) :=
  match s.objects self with
  | none => (s, [])
  | some object =>
    let (next, closings) := s.call self object 0 destroySocket
    ({ next with objects := Function.update next.objects self none }, closings)

/-- Whether `Request::socket_` can be given an object: it exists, and is not the one it holds. -/
def canStore (s : SocketSystem ι) : Option ι → Bool
  | none => true
  | some self => (s.objects self).isSome && s.socket_ != some self

/-- The system after an operation, and the descriptors that are closed, with the objects that close them. -/
def step (s : SocketSystem ι) : SocketOp ι → SocketSystem ι × List (ι × Nat)
  | .construct self kind ipVersion fd ssl =>
    if (s.objects self).isNone && fd.all fun fd => decide (fd ∉ s.descriptors) then
      ({ s with
          objects := Function.update s.objects self (some (constructSocket kind ipVersion fd ssl))
          descriptors := fd.toFinset ∪ s.descriptors }, [])
    else (s, [])
  | .moveConstruct self rhs =>
    match s.objects self, s.objects rhs with
    | none, some other =>
      let (moved, left) := takeOver other
      ({ s with objects := Function.update (Function.update s.objects rhs (some left)) self (some moved) }, [])
    | _, _ => (s, [])
  | .moveAssign self rhs =>
    match s.objects self, s.objects rhs with
    | some object, some other =>
      if self = rhs ∨ object.kind ≠ other.kind then (s, [])
      else
        -- `operator=` closes the old handle before it takes the new one over
        let (next, closings) := s.call self object 0 closeSocket
        let (moved, left) := takeOver other
        ({ next with
            objects := Function.update (Function.update next.objects rhs (some left)) self (some moved) },
          closings)
    | _, _ => (s, [])
  | .connect self timeout script now =>
    match s.objects self with
    | none => (s, [])
    | some object => s.call self object now (connectSocketObject timeout script)
  | .close self =>
    match s.objects self with
    | none => (s, [])
    | some object => s.call self object 0 closeSocket
  -- an object that `socket_` holds is freed through `socket_` only
  | .destroy self => if s.socket_ = some self then (s, []) else s.free self
  | .store socketPtr =>
    if s.canStore socketPtr then
      let (next, closings) :=
        match s.socket_ with
        | none => (s, [])
        | some held => s.free held
      ({ next with socket_ := socketPtr }, closings)
    else (s, [])

/-- The system after some operations. -/
def run (s : SocketSystem ι) (ops : List (SocketOp ι)) : SocketSystem ι :=
  ops.foldl (fun s op => (s.step op).1) s

end SocketSystem

end HttpRequest
