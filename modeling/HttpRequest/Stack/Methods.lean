import HttpRequest.Model.Stack
import HttpRequest.Sockets.FinalOutcomes

/-! # What the methods of a socket do

A method makes the calls of its class only, and makes them on a descriptor it has; it waits, if it does not
return, and it leaves the class and the version of its object as they are (`watch_connectSocketObject`). -/

namespace HttpRequest

open Foundations

/-! ### Calls and their descriptor -/

/-- The calls that objects of a class make. -/
def Syscall.fits (kind : SocketKind) : Syscall → Bool
  | .send _ | .recv _ => kind == .PlainSocket
  | .SSL_connect | .SSL_write _ | .SSL_read _ | .SSL_shutdown | .SSL_free => kind == .TSLSocket
  | .getFlags | .setFlags | .setNoSigPipe | .connect | .select _ _ | .getsockopt | .close _ => true

/-- The calls that need a descriptor. `close` needs the one it closes, `SSL_free` needs none. -/
def Syscall.HasDescriptor (fd : Option Nat) : Syscall → Prop
  | .close closed => fd = some closed
  | .SSL_free => True
  | _ => fd ≠ none

/-- The monitor that allows an object of a class its calls, as long as it has a descriptor for them. -/
def methodMonitor (kind : SocketKind) : Monitor (Option Nat) Syscall where
  next := descriptorBehind
  allows fd call := call.fits kind = true ∧ call.HasDescriptor fd

/-- What a request keeps of an object. -/
def ISocket.pointed (self : ISocket) : Socket := ⟨self.kind, self.ipVersion_⟩

/-- The object is unchanged, and has a descriptor. -/
def Unmoved (object : ISocket) (fd : Option Nat) (s : MethodState) : Prop :=
  fd = object.socket_ ∧ s.self = object ∧ fd ≠ none

/-- The object is of a class and a version. -/
def Remains (socket : Socket) (fd : Option Nat) (s : MethodState) : Prop :=
  fd = s.self.socket_ ∧ s.self.pointed = socket

/-- An unchanged object is of its class and version. -/
theorem Unmoved.remains {object : ISocket} {fd : Option Nat} {s : MethodState} (h : Unmoved object fd s) :
    Remains object.pointed fd s := by
  obtain ⟨hfd, hself, -⟩ := h
  rw [← hself] at hfd ⊢
  exact ⟨hfd, rfl⟩

/-- A method that has not returned waits. -/
def Waits (stop : Stop) (_ : Option Nat) (_ : MethodState) : Prop := stop = .pending

/-! ### Rules -/

section

variable {object : ISocket} {α : Type}

/-- The methods of an object, under the monitor of its class. -/
abbrev WatchMethod (object : ISocket) (P : Option Nat → MethodState → Prop) (m : Method α)
    (Q : α → Option Nat → MethodState → Prop) : Prop :=
  Program.Watch (methodMonitor object.kind) () P m Q Waits

/-- A call that closes nothing. -/
theorem watch_emit_kept {call : Syscall} (hfits : call.fits object.kind = true)
    (hneeds : ∀ fd, fd ≠ none → call.HasDescriptor fd) (hkeeps : ∀ fd, descriptorBehind fd call = fd) :
    WatchMethod object (Unmoved object) (Program.emit call) fun _ => Unmoved object := by
  refine .emit (fun fd s hs => ⟨hfits, hneeds fd hs.2.2⟩) fun fd s hs => ?_
  show Unmoved object (descriptorBehind fd call) s
  rw [hkeeps]
  exact hs

/-- The results of `select`. -/
def selectCodes : List ResultCode := [.Success, .Timeout, .Retry, .Failed]

/-- `select` leaves the object unchanged. -/
theorem watch_select_kept (type : SelectType) (timeout : Int) (reply : Option SelectReply) :
    WatchMethod object (Unmoved object) (select type timeout reply)
      fun result fd s => result.resultCode ∈ selectCodes ∧ Unmoved object fd s := by
  refine .bind (watch_emit_kept rfl (fun _ h => h) fun _ => rfl) fun _ => ?_
  cases reply with
  | none => exact .stop fun _ _ _ => rfl
  | some reply =>
    refine .bind (.update (Q := fun _ => Unmoved object) fun _ _ hs => hs) fun _ => ?_
    cases reply.ret with
    | ready => exact .pure fun _ _ hs => ⟨by decide, hs⟩
    | timedOut => exact .pure fun _ _ hs => ⟨by decide, hs⟩
    | failed errno =>
      refine .pure fun _ _ hs => ⟨?_, hs⟩
      dsimp only
      split <;> decide

/-! ### Closing and connecting -/

/-- The results of `config`. -/
def configCodes : List ResultCode :=
  [.Success, .CreateSocketFailed, .GetFlagsFailed, .SetFlagsFailed, .SetNoSigPipeFailed]

/-- So does `setNonBlocking`. -/
theorem watch_setNonBlocking_kept (reply : ConfigReply) :
    WatchMethod object (Unmoved object) (ISocket.setNonBlocking reply)
      fun code fd s => code ∈ configCodes ∧ Unmoved object fd s := by
  have hcall {call : Syscall} (hfits : call.fits object.kind = true)
      (hneeds : ∀ fd, fd ≠ none → call.HasDescriptor fd) (hkeeps : ∀ fd, descriptorBehind fd call = fd) :
      WatchMethod object (Unmoved object) (Program.emit call) fun _ => Unmoved object :=
    watch_emit_kept hfits hneeds hkeeps
  refine .bind (hcall rfl (fun _ h => h) fun _ => rfl) fun _ => ?_
  refine .ite (fun _ => .pure fun _ _ hs => ⟨by decide, hs⟩) fun _ => ?_
  refine .bind (hcall rfl (fun _ h => h) fun _ => rfl) fun _ => ?_
  refine .ite (fun _ => .pure fun _ _ hs => ⟨by decide, hs⟩) fun _ => ?_
  refine .bind (hcall rfl (fun _ h => h) fun _ => rfl) fun _ => ?_
  exact .ite (fun _ => .pure fun _ _ hs => ⟨by decide, hs⟩) fun _ => .pure fun _ _ hs => ⟨by decide, hs⟩

/-- `close()` on an object that has a descriptor. -/
theorem watch_closeSocket_kept :
    WatchMethod object (Unmoved object) closeSocket fun _ => Remains object.pointed := by
  intro fd s hs
  obtain ⟨rfl, rfl, hne⟩ := hs
  obtain ⟨⟨kind, version, socket, ssl⟩, now⟩ := s
  obtain ⟨fd, rfl⟩ := Option.ne_none_iff_exists'.mp hne
  cases kind with
  | PlainSocket => exact ⟨⟨⟨rfl, rfl⟩, trivial⟩, rfl, rfl⟩
  | TSLSocket =>
    cases ssl with
    | none => exact ⟨⟨⟨rfl, rfl⟩, trivial⟩, rfl, rfl⟩
    | some ssl => exact ⟨⟨⟨rfl, hne⟩, ⟨rfl, rfl⟩, ⟨rfl, trivial⟩, trivial⟩, rfl, rfl⟩

/-- An object whose members have not changed yet. -/
def Untouched (object : ISocket) (fd : Option Nat) (s : MethodState) : Prop :=
  fd = object.socket_ ∧ s.self = object

/-- An untouched object is of its class and version. -/
theorem Untouched.remains {fd : Option Nat} {s : MethodState} (h : Untouched object fd s) :
    Remains object.pointed fd s := by
  obtain ⟨hfd, hself⟩ := h
  rw [← hself] at hfd ⊢
  exact ⟨hfd, rfl⟩

/-- A successful result leaves the object as it is, and any other its class and version. -/
def Settled (object : ISocket) (code : ResultCode) (fd : Option Nat) (s : MethodState) : Prop :=
  Remains object.pointed fd s ∧ (code = .Success → Unmoved object fd s)

/-- An unchanged object is settled, whatever the result. -/
theorem Unmoved.settled {code : ResultCode} {fd : Option Nat} {s : MethodState} (h : Unmoved object fd s) :
    Settled object code fd s := ⟨h.remains, fun _ => h⟩

/-- An untouched object is settled with a failure. -/
theorem Untouched.settled {code : ResultCode} {fd : Option Nat} {s : MethodState}
    (h : Untouched object fd s) (hcode : code ≠ .Success) : Settled object code fd s :=
  ⟨h.remains, fun hsuccess => absurd hsuccess hcode⟩

/-- `config` settles the object. -/
theorem watch_config (reply : ConfigReply) :
    WatchMethod object (Untouched object) (ISocket.config reply)
      fun code fd s => code ∈ configCodes ∧ Settled object code fd s := by
  refine .bind_state fun s => ?_
  cases hsocket : s.self.socket_ with
  | none => exact .pure fun _ _ hs => ⟨by decide, hs.2.settled (by decide)⟩
  | some fd =>
    refine .conseq (P := Unmoved object) ?_ ?_ fun _ _ _ hs => hs
    · refine .bind (watch_setNonBlocking_kept reply) fun code => .ite (fun hcode => ?_) fun hcode => ?_
      · have hclose : WatchMethod object (fun fd s => code ∈ configCodes ∧ Unmoved object fd s) closeSocket
            fun _ fd s => code ∈ configCodes ∧ Remains object.pointed fd s := by
          intro k t ht
          obtain ⟨haccepts, hresult⟩ := watch_closeSocket_kept k t ht.2
          refine ⟨haccepts, ?_⟩
          generalize closeSocket.run () t = r at hresult
          obtain ⟨o, t', es⟩ := r
          cases o with
          | ok _ => exact ⟨ht.1, hresult⟩
          | error _ => exact hresult
        exact hclose.bind fun _ => .pure fun _ _ hs => ⟨hs.1, hs.2, fun hsuccess => absurd hsuccess hcode⟩
      · exact .pure fun _ _ hs => ⟨hs.1, hs.2.settled⟩
    · rintro k t ⟨rfl, rfl, hself⟩
      exact ⟨rfl, hself, by rw [← hself, hsocket]; exact Option.some_ne_none _⟩

/-- Waiting for the connection leaves the object unchanged. -/
theorem watch_checkConnectLoop_kept (expiredTime : Int) (selects : List SelectReply) :
    WatchMethod object (Unmoved object) (ISocket.checkConnectLoop expiredTime selects)
      fun _ => Unmoved object := by
  have hselect (remainTime : Int) (reply : Option SelectReply) :
      WatchMethod object (Unmoved object) (select .Write remainTime reply) fun _ => Unmoved object :=
    (watch_select_kept .Write remainTime reply).conseq (fun _ _ hs => hs) fun _ _ _ hs => hs.2
  induction selects with
  | nil =>
    refine .bind_state fun s => .ite (fun _ => .pure fun _ _ hs => hs.2) fun _ => ?_
    exact ((hselect _ _).conseq (fun _ _ hs => hs.2) fun _ _ _ hs => hs).bind fun _ => .pure fun _ _ hs => hs
  | cons reply selects ih =>
    refine .bind_state fun s => .ite (fun _ => .pure fun _ _ hs => hs.2) fun _ => ?_
    refine ((hselect _ _).conseq (fun _ _ hs => hs.2) fun _ _ _ hs => hs).bind fun result => ?_
    exact .ite (fun _ => ih) fun _ => .pure fun _ _ hs => hs

/-- The results of `checkConnectResult`, on a result that is one of them. -/
def checkedCodes : List ResultCode := [.Success, .Timeout, .ConnectGenericError]

/-- So does checking how it went. -/
theorem watch_checkConnectResult_kept {result : SocketResult} (hresult : result.resultCode ∈ checkedCodes)
    (timeout : Int) (script : ConnectScript) :
    WatchMethod object (Unmoved object) (ISocket.checkConnectResult result timeout script)
      fun result fd s => result.resultCode ∈ checkedCodes ∧ Unmoved object fd s := by
  refine .ite (fun _ => .pure fun _ _ hs => ⟨hresult, hs⟩) fun _ => ?_
  refine .ite (fun _ => .pure fun _ _ hs => ⟨hresult, hs⟩) fun _ => .bind_state fun s => ?_
  refine .bind (.update (Q := fun _ => Unmoved object) fun _ _ hs => hs.2) fun _ => ?_
  refine .bind (watch_checkConnectLoop_kept _ _) fun waited => ?_
  cases waited with
  | none => exact .pure fun _ _ hs => ⟨by decide, hs⟩
  | some _ =>
    refine .bind (watch_emit_kept rfl (fun _ h => h) fun _ => rfl) fun _ => ?_
    cases script.getsockopt with
    | error errno => exact .pure fun _ _ hs => ⟨by simp [checkedCodes], hs⟩
    | ok error =>
      refine .ite (fun _ => .pure fun _ _ hs => ⟨by simp [checkedCodes], hs⟩) fun _ => ?_
      exact .pure fun _ _ hs => ⟨by simp [checkedCodes], hs⟩

/-- The results of `connect` that do not depend on the address. -/
def connectCodes : List ResultCode := configCodes ++ checkedCodes ++ selectCodes ++ [.Disconnected]

/-- **The results of `connect`.** Two of them say that there is no address or that it is of another family. -/
def ConnectCode (address : Option Family) (object : ISocket) (code : ResultCode) : Prop :=
  code ∈ connectCodes ∨ code = .ConnectAddressError ∧ address = none ∨
    code = .ConnectTypeInconsistent ∧ address ≠ some (getAddressFamily object.ipVersion_)

/-- `ISocket::connect` settles the object. -/
theorem watch_iSocketConnect (timeout : Int) (script : ConnectScript) :
    WatchMethod object (Untouched object) (ISocket.connect timeout script)
      fun result fd s => ConnectCode script.address object result.resultCode ∧
        Settled object result.resultCode fd s := by
  refine .bind_state fun s => ?_
  cases haddress : script.address with
  | none => exact .pure fun _ _ hs => ⟨.inr (.inl ⟨rfl, rfl⟩), hs.2.settled (by decide)⟩
  | some family =>
    refine .ite (fun hfamily => .pure ?_) fun hfamily => ?_
    · rintro fd _ ⟨rfl, hs⟩
      refine ⟨.inr (.inr ⟨rfl, ?_⟩), hs.settled (by decide)⟩
      rintro ⟨⟩
      exact hfamily (by rw [hs.2])
    · have hchecked {code : ResultCode} (h : code ∈ checkedCodes) : code ∈ connectCodes :=
        List.mem_append_left _ (List.mem_append_left _ (List.mem_append_right _ h))
      have hconfig : WatchMethod object (fun fd t => t = s ∧ Untouched object fd t)
          (ISocket.config script.config) fun code fd s => code ∈ configCodes ∧ Settled object code fd s :=
        (watch_config script.config).conseq (fun _ _ hs => hs.2) fun _ _ _ hs => hs
      refine hconfig.bind fun code => .ite (fun hcode => ?_) fun hcode => ?_
      · refine .pure fun _ _ hs => ⟨.inl ?_, hs.2⟩
        exact List.mem_append_left _ (List.mem_append_left _ (List.mem_append_left _ hs.1))
      · refine .conseq (P := Unmoved object) (Q := fun result fd s =>
          result.resultCode ∈ checkedCodes ∧ Unmoved object fd s) ?_ (fun _ _ hs => hs.2.2 (not_not.mp hcode))
          fun _ _ _ hs => ⟨.inl (hchecked hs.1), hs.2.settled⟩
        refine .bind (watch_emit_kept rfl (fun _ h => h) fun _ => rfl) fun _ => ?_
        cases script.connect with
        | some errno => exact watch_checkConnectResult_kept (by simp [checkedCodes]) timeout script
        | none => exact watch_checkConnectResult_kept (by simp [checkedCodes]) timeout script

/-- The handshake leaves the object unchanged. -/
theorem watch_sSLConnect_kept (hkind : object.kind = .TSLSocket) (outcome : WriteOutcome) :
    WatchMethod object (Unmoved object) (SSLManager.connect outcome)
      fun result fd s => result.resultCode ∈ connectCodes ∧ Unmoved object fd s := by
  refine .bind (watch_emit_kept (by simp [Syscall.fits, hkind]) (fun _ h => h) fun _ => rfl) fun _ => ?_
  refine .ite (fun _ => .pure fun _ _ hs => ⟨by decide, hs⟩) fun _ => ?_
  refine .ite (fun _ => .pure fun _ _ hs => ⟨?_, hs⟩) fun _ => .pure fun _ _ hs => ⟨by decide, hs⟩
  simp [connectCodes, selectCodes]

/-- **`connect`** makes calls of its class on a descriptor it has, waits if it does not return, and leaves the
object as it is when it succeeds. -/
theorem watch_connectSocketObject (timeout : Int) (script : TSLConnectScript) :
    WatchMethod object (Untouched object) (connectSocketObject timeout script)
      fun result fd s => ConnectCode script.address object result.resultCode ∧
        Settled object result.resultCode fd s := by
  refine .bind_state fun s => ?_
  have hconnect : WatchMethod object (fun fd t => t = s ∧ Untouched object fd t)
      (ISocket.connect timeout script.toConnectScript) fun result fd s =>
        ConnectCode script.address object result.resultCode ∧ Settled object result.resultCode fd s :=
    (watch_iSocketConnect timeout script.toConnectScript).conseq (fun _ _ hs => hs.2) fun _ _ _ hs => hs
  cases hkind : s.self.kind with
  | PlainSocket => exact hconnect
  | TSLSocket =>
    -- the class is that of the object the method has been called on
    by_cases hobject : object.kind = .TSLSocket
    · refine hconnect.bind fun result => .ite (fun _ => .pure fun _ _ hs => hs) fun hsuccess => ?_
      have hsuccess : result.resultCode = .Success := by
        simpa [SocketResult.isSuccess] using hsuccess
      refine .conseq (P := Unmoved object) (Q := fun result fd s =>
        result.resultCode ∈ connectCodes ∧ Unmoved object fd s) ?_ (fun _ _ hs => hs.2.2 hsuccess)
        fun _ _ _ hs => ⟨.inl hs.1, hs.2.settled⟩
      refine .bind (watch_sSLConnect_kept hobject script.handshake) fun result => ?_
      refine .ite (fun _ => ?_) fun _ => .pure fun _ _ hs => hs
      refine (watch_select_kept _ timeout script.handshakeSelect).conseq (fun _ _ hs => hs.2)
        fun _ _ _ hs => ⟨?_, hs.2⟩
      exact List.mem_append_left _ (List.mem_append_right _ hs.1)
    · intro fd t ht
      obtain ⟨rfl, -, rfl⟩ := ht
      exact absurd hkind hobject

/-! ### Waiting, sending and receiving -/

/-- So does the wait for data. -/
theorem watch_canReceiveSocket (timeout pending : Int) (reply : Option SelectReply) :
    WatchMethod object (Unmoved object) (canReceiveSocket timeout pending reply)
      fun result fd s => result.resultCode ∈ selectCodes ∧ Unmoved object fd s := by
  refine .bind_state fun s => ?_
  have hselect : WatchMethod object (fun fd t => t = s ∧ Unmoved object fd t) (select .Read timeout reply)
      fun result fd s => result.resultCode ∈ selectCodes ∧ Unmoved object fd s :=
    (watch_select_kept .Read timeout reply).conseq (fun _ _ hs => hs.2) fun _ _ _ hs => hs
  cases s.self.kind with
  | PlainSocket => exact hselect
  | TSLSocket => exact .ite (fun _ => .pure fun _ _ hs => ⟨by decide, hs.2⟩) fun _ => hselect

/-- The results of `send`. -/
def sendCodes : List ResultCode := [.Success, .Failed, .RetryReachMaxCount, .Disconnected]

/-- The results of `receive`. -/
def receiveCodes : List ResultCode := [.Success, .Failed, .Retry, .RetryReachMaxCount, .Disconnected]

/-- What a call of `::send` or `SSL_write` has taken: a plain socket keeps the size in 32 bits. -/
def WriteOutcome.size (kind : SocketKind) (outcome : WriteOutcome) : Int :=
  match kind with
  | .PlainSocket => toInt32 outcome.ret
  | .TSLSocket => outcome.ret

/-- A call that has failed. -/
def WriteOutcome.Fails (kind : SocketKind) (outcome : WriteOutcome) : Prop :=
  match kind with
  | .PlainSocket => toInt32 outcome.ret = -1
  | .TSLSocket => outcome.ret < 0

/-- A call is the first of some that has not failed. -/
def FirstTaking (kind : SocketKind) (outcomes : List WriteOutcome) (outcome : WriteOutcome) : Prop :=
  ∃ front back, outcomes = front ++ outcome :: back ∧ (∀ failed ∈ front, failed.Fails kind) ∧ ¬outcome.Fails kind

/-- **The results of `send`** over some outcomes: where it succeeds the first call that has not failed has taken
something, and that is what is counted; where it fails nothing is. -/
structure Sent (kind : SocketKind) (outcomes : List WriteOutcome) (result : SocketResult × Int) : Prop where
  code : result.1.resultCode ∈ sendCodes
  counted : result.1.isSuccess = true →
    result.2 ≠ 0 ∧ ∃ outcome, FirstTaking kind outcomes outcome ∧ result.2 = outcome.size kind
  uncounted : result.1.isSuccess = false → result.2 ≤ 0

section

variable {kind : SocketKind} {outcome : WriteOutcome} {outcomes : List WriteOutcome}

/-- The call itself, where it has not failed. -/
theorem FirstTaking.head (h : ¬outcome.Fails kind) : FirstTaking kind (outcome :: outcomes) outcome :=
  ⟨[], outcomes, rfl, fun _ h => absurd h List.not_mem_nil, h⟩

/-- A call that has failed is passed over. -/
theorem FirstTaking.behind {first : WriteOutcome} (hfirst : first.Fails kind) (h : FirstTaking kind outcomes outcome) :
    FirstTaking kind (first :: outcomes) outcome := by
  obtain ⟨front, back, rfl, hfront, houtcome⟩ := h
  exact ⟨first :: front, back, rfl, List.forall_mem_cons.mpr ⟨hfirst, hfront⟩, houtcome⟩

/-- The first call that has not failed is one of the calls. -/
theorem FirstTaking.mem (h : FirstTaking kind outcomes outcome) : outcome ∈ outcomes := by
  obtain ⟨front, back, rfl, -, -⟩ := h
  exact List.mem_append_right _ List.mem_cons_self

/-- A result that counts nothing. -/
theorem sent_failed (code : ResultCode) (hcode : code ∈ sendCodes) (hne : code ≠ .Success) (errorCode : Int)
    {size : Int} (hsize : size ≤ 0) : Sent kind outcomes ({ resultCode := code, errorCode }, size) where
  code := hcode
  counted h := absurd (beq_iff_eq.mp h) hne
  uncounted _ := hsize

/-- A call that has failed in front changes nothing. -/
theorem Sent.behind {first : WriteOutcome} {result : SocketResult × Int} (hfirst : first.Fails kind)
    (h : Sent kind outcomes result) : Sent kind (first :: outcomes) result where
  code := h.code
  counted hsuccess := by
    obtain ⟨hne, outcome, houtcome, hsize⟩ := h.counted hsuccess
    exact ⟨hne, outcome, houtcome.behind hfirst, hsize⟩
  uncounted := h.uncounted

/-- **What is counted has been taken**: where the calls return what they may, the size that `send` reports is
positive and not more than they have been offered. -/
theorem Sent.size_pos_le {result : SocketResult × Int} (h : Sent kind outcomes result)
    (hsuccess : result.1.isSuccess = true) {size : Nat} (hrange : ∀ outcome ∈ outcomes, outcome.OfSend size) :
    0 < result.2 ∧ result.2 ≤ size ∧ result.2 < 2 ^ 31 := by
  obtain ⟨hne, outcome, houtcome, hsize⟩ := h.counted hsuccess
  have hret := hrange outcome houtcome.mem
  have hint := toInt32_of_ofSend hret
  obtain ⟨-, -, -, -, htaken⟩ := houtcome
  unfold WriteOutcome.OfSend at hret
  cases kind with
  | PlainSocket =>
    simp only [WriteOutcome.Fails, WriteOutcome.size, hint] at htaken hsize
    omega
  | TSLSocket =>
    simp only [WriteOutcome.Fails, WriteOutcome.size] at htaken hsize
    omega

end

/-- What the loop of `PlainSocket::send` leaves: its last call, behind calls that have failed. -/
theorem watch_plainSendLoop_kept (hkind : object.kind = .PlainSocket) (data : Bytes)
    (outcomes : List WriteOutcome) : ∀ retryCount : Nat,
    WatchMethod object (Unmoved object) (PlainSocket.sendLoop data retryCount outcomes)
      fun result fd s => (result.1 = -1 ∨ ∃ outcome, FirstTaking .PlainSocket outcomes outcome ∧
        result.1 = outcome.size .PlainSocket) ∧ Unmoved object fd s := by
  have hcall : WatchMethod object (Unmoved object) (Program.emit (.send data)) fun _ => Unmoved object :=
    watch_emit_kept (by simp [Syscall.fits, hkind]) (fun _ h => h) fun _ => rfl
  induction outcomes with
  | nil => exact fun _ => hcall.bind fun _ => .stop fun _ _ _ => rfl
  | cons outcome outcomes ih =>
    intro retryCount
    refine hcall.bind fun _ => .ite (fun hretry => ?_) fun _ => .pure fun _ _ hs => ⟨?_, hs⟩
    · -- an error number says that the call has failed
      have hfails : outcome.Fails .PlainSocket := by
        by_contra hne
        have hcode : (if toInt32 outcome.ret = -1 then outcome.error else 0) = RetryCode := hretry.2
        rw [if_neg (show ¬toInt32 outcome.ret = -1 from hne)] at hcode
        exact absurd hcode (by decide)
      refine (ih _).conseq (fun _ _ hs => hs) fun result fd s hs => ⟨hs.1.imp_right ?_, hs.2⟩
      rintro ⟨taking, htaking, hsize⟩
      exact ⟨taking, htaking.behind hfails, hsize⟩
    · by_cases hfails : outcome.Fails .PlainSocket
      · exact .inl hfails
      · exact .inr ⟨outcome, .head hfails, rfl⟩

/-- What the loop around `SSL_write` returns, by induction on the outcomes. -/
theorem watch_writeLoop_kept (hkind : object.kind = .TSLSocket) (data : Bytes)
    (outcomes : List WriteOutcome) : ∀ (retryCount : Nat) (isNeedRetry : Bool) (errorCode : Int),
    WatchMethod object (Unmoved object) (SSLManager.writeLoop data retryCount isNeedRetry errorCode outcomes)
      fun result fd s => Sent .TSLSocket outcomes result ∧ Unmoved object fd s := by
  have hcall : WatchMethod object (Unmoved object) (Program.emit (.SSL_write data)) fun _ => Unmoved object :=
    watch_emit_kept (by simp [Syscall.fits, hkind]) (fun _ h => h) fun _ => rfl
  induction outcomes with
  | nil => exact fun _ _ _ => hcall.bind fun _ => .stop fun _ _ _ => rfl
  | cons outcome outcomes ih =>
    intro retryCount isNeedRetry errorCode
    refine hcall.bind fun _ => .ite (fun _ => ?_) fun hzero => .ite (fun hfails => ?_) fun hfails => ?_
    · exact .pure fun _ _ hs => ⟨sent_failed .Disconnected (by decide) (by decide) _ le_rfl, hs⟩
    · refine .ite (fun _ => ?_) fun _ => .ite (fun _ => ?_) fun _ => ?_
      · exact .pure fun _ _ hs => ⟨sent_failed .RetryReachMaxCount (by decide) (by decide) _ hfails.le, hs⟩
      · exact (ih _ _ _).conseq (fun _ _ hs => hs) fun _ _ _ hs => ⟨hs.1.behind hfails, hs.2⟩
      · exact .pure fun _ _ hs => ⟨sent_failed .Failed (by decide) (by decide) _ hfails.le, hs⟩
    · refine .pure fun _ _ hs => ⟨⟨List.mem_cons_self, fun _ => ⟨hzero, outcome, .head hfails, rfl⟩, ?_⟩, hs⟩
      exact fun h => absurd h (by simp [SocketResult.isSuccess])

/-- `PlainSocket::send` makes one of its results of what its loop leaves. -/
theorem sent_sendResult {outcomes : List WriteOutcome} {sendSize : Int}
    (h : sendSize = -1 ∨ ∃ outcome, FirstTaking .PlainSocket outcomes outcome ∧ sendSize = outcome.size .PlainSocket)
    (errorCode : Int) : Sent .PlainSocket outcomes (PlainSocket.sendResult sendSize errorCode) := by
  unfold PlainSocket.sendResult
  by_cases hfailed : sendSize = -1
  · rw [if_pos hfailed]
    by_cases hretry : errorCode = RetryCode
    · rw [if_pos hretry]
      exact sent_failed .RetryReachMaxCount (by decide) (by decide) _ le_rfl
    · rw [if_neg hretry]
      exact sent_failed .Failed (by decide) (by decide) _ le_rfl
  · rw [if_neg hfailed]
    by_cases hzero : sendSize = 0
    · rw [if_pos hzero]
      exact sent_failed .Disconnected (by decide) (by decide) _ le_rfl
    · rw [if_neg hzero]
      refine ⟨List.mem_cons_self, fun _ => ⟨hzero, h.resolve_left hfailed⟩, ?_⟩
      exact fun h => absurd h (by simp [SocketResult.isSuccess])

/-- **`send`** counts what its calls have taken, and leaves the object as it is. -/
theorem watch_sendSocket (data : Bytes) (outcomes : List WriteOutcome) :
    WatchMethod object (Unmoved object) (sendSocket data outcomes)
      fun result fd s => Sent object.kind outcomes result ∧ Unmoved object fd s := by
  refine .bind_state fun s => ?_
  by_cases hself : s.self = object
  · cases hkind : s.self.kind with
    | PlainSocket =>
      have hobject : object.kind = .PlainSocket := hself ▸ hkind
      refine .conseq (P := Unmoved object) ?_ (fun _ _ hs => hs.2) fun _ _ _ hs => hs
      refine .bind (watch_plainSendLoop_kept hobject data outcomes 0) fun result => ?_
      exact .pure fun _ _ hs => ⟨hobject ▸ sent_sendResult hs.1 _, hs.2⟩
    | TSLSocket =>
      have hobject : object.kind = .TSLSocket := hself ▸ hkind
      refine .conseq (P := Unmoved object) ?_ (fun _ _ hs => hs.2) fun _ _ _ hs => hs
      refine .bind_state fun t => ?_
      cases t.self.sslPtr with
      | none => exact .pure fun _ _ hs => ⟨sent_failed .Failed (by decide) (by decide) _ le_rfl, hs.2⟩
      | some ssl =>
        exact (watch_writeLoop_kept hobject data outcomes 0 false 0).conseq (fun _ _ hs => hs.2)
          fun _ _ _ hs => ⟨hobject ▸ hs.1, hs.2⟩
  · rintro fd t ⟨rfl, hs⟩
    exact absurd hs.2.1 hself

/-- **The results of `receive`** over some outcomes: it succeeds just where it has bytes, and they are those that
the first call that has not failed has stored. -/
structure Received (outcomes : List ReadOutcome) (result : SocketResult × Bytes) : Prop where
  code : result.1.resultCode ∈ receiveCodes
  success : result.1.isSuccess = true ↔ result.2 ≠ []
  stored : result.2 ≠ [] → ∃ front back, outcomes = front ++ .bytes result.2 :: back ∧
    ∀ outcome ∈ front, ∃ error, outcome = .failed error

section

variable {outcomes : List ReadOutcome}

/-- A result without bytes. -/
theorem received_nil (code : ResultCode) (hcode : code ∈ receiveCodes) (hne : code ≠ .Success) (errorCode : Int) :
    Received outcomes ({ resultCode := code, errorCode }, []) where
  code := hcode
  success := by simp [SocketResult.isSuccess, hne]
  stored h := absurd rfl h

/-- The bytes of the first call. -/
theorem received_bytes {data : Bytes} (hdata : data ≠ []) : Received (.bytes data :: outcomes) ({}, data) where
  code := List.mem_cons_self
  success := by simpa [SocketResult.isSuccess] using hdata
  stored _ := ⟨[], outcomes, rfl, fun _ h => absurd h List.not_mem_nil⟩

/-- A read that has failed in front changes nothing. -/
theorem Received.behind {result : SocketResult × Bytes} (h : Received outcomes result) (error : Int) :
    Received (.failed error :: outcomes) result where
  code := h.code
  success := h.success
  stored hdata := by
    obtain ⟨front, back, rfl, hfront⟩ := h.stored hdata
    exact ⟨.failed error :: front, back, rfl, List.forall_mem_cons.mpr ⟨⟨error, rfl⟩, hfront⟩⟩

/-- What is received has been stored by one of the calls. -/
theorem Received.mem {result : SocketResult × Bytes} (h : Received outcomes result) (hdata : result.2 ≠ []) :
    .bytes result.2 ∈ outcomes := by
  obtain ⟨front, back, heq, -⟩ := h.stored hdata
  rw [heq]
  exact List.mem_append_right _ List.mem_cons_self

/-- No more is received than the calls may store. -/
theorem Received.length_le {result : SocketResult × Bytes} (h : Received outcomes result)
    (hrange : ∀ outcome ∈ outcomes, outcome.OfRecv) : result.2.length ≤ kDefaultReadSize := by
  by_cases hdata : result.2 = []
  · rw [hdata]
    exact Nat.zero_le _
  · exact hrange _ (h.mem hdata)

end

/-- What `PlainSocket::receive` makes of the outcome its loop leaves. -/
theorem received_receiveResult (outcome : ReadOutcome) (outcomes : List ReadOutcome) :
    Received (outcome :: outcomes) (PlainSocket.receiveResult outcome) := by
  cases outcome with
  | bytes data =>
    cases data with
    | nil => exact received_nil .Disconnected (by decide) (by decide) _
    | cons byte data => exact received_bytes (List.cons_ne_nil _ _)
  | failed errno =>
    unfold PlainSocket.receiveResult
    dsimp only
    by_cases hretry : errno = RetryCode
    · rw [if_pos hretry]
      exact received_nil .RetryReachMaxCount (by decide) (by decide) _
    · rw [if_neg hretry]
      by_cases hagain : errno = AgainCode
      · rw [if_pos hagain]
        exact received_nil .Retry (by decide) (by decide) _
      · rw [if_neg hagain]
        exact received_nil .Failed (by decide) (by decide) _

/-- What the loop around `::recv` returns, by induction on the outcomes. -/
theorem watch_plainReceiveLoop_kept (hkind : object.kind = .PlainSocket) (outcomes : List ReadOutcome) :
    ∀ retryCount : Nat,
    WatchMethod object (Unmoved object) (PlainSocket.receiveLoop retryCount outcomes)
      fun outcome fd s => Received outcomes (PlainSocket.receiveResult outcome) ∧ Unmoved object fd s := by
  have hcall : WatchMethod object (Unmoved object) (Program.emit (.recv kDefaultReadSize)) fun _ => Unmoved object :=
    watch_emit_kept (by simp [Syscall.fits, hkind]) (fun _ h => h) fun _ => rfl
  induction outcomes with
  | nil => exact fun _ => hcall.bind fun _ => .stop fun _ _ _ => rfl
  | cons outcome outcomes ih =>
    intro retryCount
    refine hcall.bind fun _ => ?_
    cases outcome with
    | bytes data => exact .pure fun _ _ hs => ⟨received_receiveResult _ _, hs⟩
    | failed errno =>
      refine .ite (fun _ => ?_) fun _ => .pure fun _ _ hs => ⟨received_receiveResult _ _, hs⟩
      exact (ih _).conseq (fun _ _ hs => hs) fun _ _ _ hs => ⟨hs.1.behind errno, hs.2⟩

/-- What the loop around `SSL_read` returns, by induction on the outcomes. -/
theorem watch_readLoop_kept (hkind : object.kind = .TSLSocket) (outcomes : List ReadOutcome) :
    ∀ (retryCount : Nat) (isNeedRetry : Bool) (errorCode : Int),
    WatchMethod object (Unmoved object) (SSLManager.readLoop retryCount isNeedRetry errorCode outcomes)
      fun result fd s => Received outcomes result ∧ Unmoved object fd s := by
  have hcall : WatchMethod object (Unmoved object) (Program.emit (.SSL_read kDefaultReadSize))
      fun _ => Unmoved object := watch_emit_kept (by simp [Syscall.fits, hkind]) (fun _ h => h) fun _ => rfl
  induction outcomes with
  | nil => exact fun _ _ _ => hcall.bind fun _ => .stop fun _ _ _ => rfl
  | cons outcome outcomes ih =>
    intro retryCount isNeedRetry errorCode
    refine hcall.bind fun _ => ?_
    cases outcome with
    | bytes data =>
      refine .ite (fun _ => .pure fun _ _ hs => ⟨received_nil .Disconnected (by decide) (by decide) _, hs⟩)
        fun hdata => .pure fun _ _ hs => ⟨received_bytes ?_, hs⟩
      simpa using hdata
    | failed error =>
      refine .ite (fun _ => ?_) fun _ => ?_
      · exact .pure fun _ _ hs => ⟨received_nil .RetryReachMaxCount (by decide) (by decide) _, hs⟩
      refine .ite (fun _ => ?_) fun _ => .pure fun _ _ hs => ⟨received_nil .Failed (by decide) (by decide) _, hs⟩
      exact (ih _ _ _).conseq (fun _ _ hs => hs) fun _ _ _ hs => ⟨hs.1.behind error, hs.2⟩

/-- **`receive`** hands over what its calls have stored, and leaves the object as it is. -/
theorem watch_receiveSocket (outcomes : List ReadOutcome) :
    WatchMethod object (Unmoved object) (receiveSocket outcomes)
      fun result fd s => Received outcomes result ∧ Unmoved object fd s := by
  refine .bind_state fun s => ?_
  by_cases hself : s.self = object
  · cases hkind : s.self.kind with
    | PlainSocket =>
      refine .conseq (P := Unmoved object) ?_ (fun _ _ hs => hs.2) fun _ _ _ hs => hs
      refine .bind (watch_plainReceiveLoop_kept (hself ▸ hkind) outcomes 0) fun outcome => ?_
      exact .pure fun _ _ hs => hs
    | TSLSocket =>
      refine .conseq (P := Unmoved object) ?_ (fun _ _ hs => hs.2) fun _ _ _ hs => hs
      refine .bind_state fun t => ?_
      cases t.self.sslPtr with
      | none => exact .pure fun _ _ hs => ⟨received_nil .Failed (by decide) (by decide) _, hs.2⟩
      | some ssl =>
        exact (watch_readLoop_kept (hself ▸ hkind) outcomes 0 false 0).conseq (fun _ _ hs => hs.2) fun _ _ _ hs => hs
  · rintro fd t ⟨rfl, hs⟩
    exact absurd hs.2.1 hself

/-! ### Freeing -/

/-- The calls of the destructor. -/
def ISocket.freeCalls (self : ISocket) : List Syscall :=
  match self.kind with
  | .PlainSocket => self.socket_.toList.map .close
  | .TSLSocket => if self.sslPtr.isSome then [.SSL_free] else []

/-- A destructor makes the calls of freeing. -/
theorem events_destroySocket (s : MethodState) : (destroySocket.run () s).events = s.self.freeCalls := by
  obtain ⟨⟨kind, version, socket, ssl⟩, now⟩ := s
  cases kind with
  | PlainSocket => cases socket <;> rfl
  | TSLSocket => cases ssl <;> rfl

end

end HttpRequest
