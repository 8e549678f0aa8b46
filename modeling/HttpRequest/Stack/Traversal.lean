import HttpRequest.Stack.Plug

/-! # The worker over its sockets, function by function

Each function of `Stack` refines the function of the same name in `Model.Request`, with a script of possible
replies: results that the methods of a socket can have. On the way every plug is carried from the start of
`process` to its end (`refines_process`). -/

namespace HttpRequest

open Foundations

variable {κ α : Type} {p : Plug κ} {version : IPVersion} {env : Env}

/-! ### Parts of the worker that call no method -/

section

variable (s : State)

/-- `disconnected` resets `socket_` at most. -/
theorem releases_disconnected : Program.Triple s.Alike disconnected (fun _ t => s.Released t)
    (fun _ _ => True) fun e => e.parsesUrl = false := by
  have hload := (State.Alike.steady s).loadValid (E := fun _ _ => True) not_parsesUrl_of_routine
  refine Program.Triple.bind hload fun valid => Program.Triple.bind Program.Keeps.state fun t => .ite ?_ ?_
  · refine Program.Triple.bind (Program.Keeps.emit (I := s.Alike) rfl) fun _ => .update fun t ht => ?_
    exact ⟨.inr rfl, ht.url, ht.version⟩
  · exact .pure fun t ht => ht.released

/-- So does `handleErrorResponse`. -/
theorem releases_handleErrorResponse (code : ResultCode) (errorCode : Int) :
    Program.Triple s.Alike (handleErrorResponse code errorCode) (fun _ t => s.Released t)
      (fun _ _ => True) fun e => e.parsesUrl = false := by
  refine Program.Triple.bind Program.Keeps.state fun t => .ite ?_ (releases_disconnected s)
  refine Program.Triple.bind ((State.Alike.steady s).step not_parsesUrl_of_routine) fun _ => ?_
  exact Program.Triple.bind (Program.Keeps.emit (I := s.Alike) rfl) fun _ => releases_disconnected s

/-- A loop of `parseChunk` resets the socket only where it fails. -/
theorem releases_parseChunkLoop (fuel : Nat) : ∀ (dataView : Bytes) (chunkSize : Int) (isCompleted : Bool),
    Program.Triple s.Alike (parseChunkLoop fuel dataView chunkSize isCompleted)
      (fun r t => s.Released t ∧ (r.res = true → s.Alike t)) (fun _ _ => True) fun e => e.parsesUrl = false := by
  have halike {r : ChunkResult} : Program.Triple s.Alike (pure r : Worker ChunkResult)
      (fun r t => s.Released t ∧ (r.res = true → s.Alike t)) (fun _ _ => True) fun e => e.parsesUrl = false :=
    .pure fun t ht => ⟨ht.released, fun _ => ht⟩
  have hthrowing {β : Type} (result : Except Fault β) : Program.Keeps s.Alike (fun _ _ => True)
      (fun e => e.parsesUrl = false) (throwing result) := keeps_throwing (fun _ _ _ => trivial) result
  induction fuel with
  | zero => exact fun _ _ _ => halike
  | succ fuel ih =>
    intro dataView chunkSize isCompleted
    refine .ite halike (.ite ?_ ?_)
    · cases find kCRLF dataView with
      | none =>
        refine Program.Triple.bind (releases_handleErrorResponse s .ChunkSizeError 0) fun _ => ?_
        exact .pure fun t ht => ⟨ht, fun hres => absurd hres Bool.false_ne_true⟩
      | some pos =>
        refine Program.Triple.bind (hthrowing _) fun chunkSize => .ite halike ?_
        exact Program.Triple.bind (hthrowing _) fun dataView => ih _ _ _
    · refine Program.Triple.bind ((State.Alike.steady s).responseData not_parsesUrl_of_routine _) fun _ => ?_
      exact Program.Triple.bind (hthrowing _) fun dataView => ih _ _ _

/-- The part of a pass behind the head resets the socket only where it is the last. -/
theorem releases_receiveBody (st : ReceiveState) (dataPtr : Data) (isCompleted : Bool) :
    Program.Triple s.Alike (receiveBody st dataPtr isCompleted)
      (fun r t => s.Released t ∧ (r.isSome = true → s.Alike t)) (fun _ _ => True)
      fun e => e.parsesUrl = false := by
  have hend : Program.Triple s.Alike (do disconnected; pure none : Worker (Option ReceiveState))
      (fun r t => s.Released t ∧ (r.isSome = true → s.Alike t)) (fun _ _ => True)
      fun e => e.parsesUrl = false := by
    refine Program.Triple.bind (releases_disconnected s) fun _ => .pure fun t ht => ⟨ht, ?_⟩
    exact fun hsome => absurd hsome Bool.false_ne_true
  have hgoes (st : ReceiveState) : Program.Triple s.Alike (pure (some st) : Worker (Option ReceiveState))
      (fun r t => s.Released t ∧ (r.isSome = true → s.Alike t)) (fun _ _ => True)
      fun e => e.parsesUrl = false := .pure fun t ht => ⟨ht.released, fun _ => ht⟩
  refine .ite ?_ ?_
  · have hchunk (data : Data) (chunkSize : Int) (isCompleted : Bool) :
        Program.Triple s.Alike (parseChunk data chunkSize isCompleted)
          (fun r t => s.Released t ∧ (r.1 = true → s.Alike t)) (fun _ _ => True)
          fun e => e.parsesUrl = false :=
      Program.Triple.bind (releases_parseChunkLoop s _ _ _ _) fun _ => .pure fun _ ht => ht
    refine Program.Triple.bind (hchunk _ _ _) ?_
    rintro ⟨res, recvDataPtr, chunkSize, isCompleted⟩
    cases res with
    | false => exact .pure fun t ht => ⟨ht.1, fun hsome => absurd hsome Bool.false_ne_true⟩
    | true =>
      have halike (t : State) (ht : s.Released t ∧ (true = true → s.Alike t)) : s.Alike t := ht.2 rfl
      dsimp only
      rw [Bool.not_true, if_neg Bool.false_ne_true]
      exact .ite (hend.conseq halike (fun _ _ h => h) (fun _ _ h => h) fun _ h => h)
        ((hgoes _).conseq halike (fun _ _ h => h) (fun _ _ h => h) fun _ h => h)
  · refine .ite ?_ (.ite hend (hgoes _))
    have hdata := (State.Alike.steady s).responseData (E := fun _ _ => True) not_parsesUrl_of_routine dataPtr
    exact Program.Triple.bind hdata fun _ => .ite hend (hgoes _)

end

/-! ### What the sockets can answer -/

/-- Replies that stand for what the system answers, one after the other, as far as they go. -/
def scripts {σ ρ : Type} (answers : σ → ρ → Prop) (systems : List σ) : Set (List ρ) :=
  {replies | ∃ front, front <+: systems ∧ List.Forall₂ answers front replies}

section

variable {σ ρ : Type} {answers : σ → ρ → Prop} {system : σ} {systems : List σ} {reply : ρ} {replies : List ρ}

/-- The system may answer nothing. -/
theorem nil_mem_scripts : [] ∈ scripts answers systems := ⟨[], List.nil_prefix, .nil⟩

/-- An answer in front is followed by the others. -/
theorem cons_mem_scripts (hreply : answers system reply) (hreplies : replies ∈ scripts answers systems) :
    reply :: replies ∈ scripts answers (system :: systems) := by
  obtain ⟨front, hfront, hall⟩ := hreplies
  exact ⟨system :: front, List.cons_prefix_cons.mpr ⟨rfl, hfront⟩, .cons hreply hall⟩

/-- Each of the replies stands for something the system answers. -/
theorem answers_of_mem (hreplies : replies ∈ scripts answers systems) (hreply : reply ∈ replies) :
    ∃ system ∈ systems, answers system reply := by
  obtain ⟨front, hfront, hall⟩ := hreplies
  suffices hexists : ∃ system ∈ front, answers system reply by
    obtain ⟨system, hsystem, hanswers⟩ := hexists
    exact ⟨system, hfront.subset hsystem, hanswers⟩
  clear hfront
  induction hall with
  | nil => cases hreply
  | cons hfirst _ ih =>
    rcases List.mem_cons.mp hreply with rfl | hreply
    · exact ⟨_, List.mem_cons_self, hfirst⟩
    · obtain ⟨system, hsystem, hanswers⟩ := ih hreply
      exact ⟨system, List.mem_cons_of_mem _ hsystem, hanswers⟩

end

/-- A reply of `canSend` or `canReceive` that returns at a time. -/
structure WaitReply.Answers (now : UInt64) (reply : WaitReply) : Prop where
  code : reply.result.resultCode ∈ selectCodes
  now_eq : reply.now = now

/-- A reply of `send`, for what its calls meet. -/
structure SendReply.Answers (system : SystemSend) (reply : SendReply) : Prop where
  sent : ∃ kind, Sent kind system.outcomes (reply.result, reply.sendSize)
  now_eq : reply.now = system.now

/-- A reply of `receive`, for what its calls meet. -/
structure ReceiveReply.Answers (system : SystemRound) (reply : ReceiveReply) : Prop where
  received : Received system.outcomes (reply.result, reply.data)
  now_eq : reply.now = system.now

/-- The replies to the waits of a pass. -/
def waitScripts : List SystemWait → Set (List WaitReply) := scripts fun wait reply => reply.Answers wait.now

/-- What a pass of the loop in `receive` can meet. -/
structure Round.Answers (system : SystemRound) (round : Round) : Prop where
  waits : round.waits ∈ waitScripts system.waits
  reply : round.reply.Answers system

/-- The scripts of the loop in `send`. -/
def sendScripts : List SystemSend → Set (List SendReply) := scripts fun system reply => reply.Answers system

/-- The scripts of the loop in `receive`. -/
def roundScripts : List SystemRound → Set (List Round) := scripts fun system round => round.Answers system

/-- There is a reply to any wait. -/
theorem waitAnswers_nonempty (now : UInt64) : {reply : WaitReply | reply.Answers now}.Nonempty :=
  ⟨⟨{}, now⟩, List.mem_cons_self, rfl⟩

/-- `receive` may always have failed. -/
theorem receiveAnswers_nonempty (system : SystemRound) : {reply : ReceiveReply | reply.Answers system}.Nonempty :=
  ⟨⟨{ resultCode := .Failed }, [], system.now⟩, received_nil .Failed (by decide) (by decide) 0, rfl⟩

/-- There is a script for the waits. -/
theorem waitScripts_nonempty (waits : List SystemWait) : (waitScripts waits).Nonempty := ⟨[], nil_mem_scripts⟩

/-- There is a script for the sends. -/
theorem sendScripts_nonempty (sends : List SystemSend) : (sendScripts sends).Nonempty := ⟨[], nil_mem_scripts⟩

/-- There is a script for the rounds. -/
theorem roundScripts_nonempty (rounds : List SystemRound) : (roundScripts rounds).Nonempty := ⟨[], nil_mem_scripts⟩

/-- `addressInfo->ai_family` agrees with the family that was asked for: with `AF_UNSPEC` it is one of the two
families of the internet. -/
def Family.Conforms (version : IPVersion) (family : Family) : Prop :=
  match version with
  | .V4 => family = .AF_INET
  | .V6 => family = .AF_INET6
  | .Auto => family = .AF_INET ∨ family = .AF_INET6

/-- A connection as the worker may meet it where the system answers as in `system`: what its methods report, and
when, is what they make of what the system answers to each of them in turn. `connect` reports an address of another
family only where `getaddrinfo` has not kept to the family it was asked for. -/
structure Connection.Answers (version : IPVersion) (system : SystemConnection) (connection : Connection) : Prop where
  lookup : connection.lookup = system.lookup
  connect : connection.connect.result.resultCode ∈ connectCodes ∨
    connection.connect.result.resultCode = .ConnectTypeInconsistent ∧
      ∃ family, system.family = some family ∧ ¬family.Conforms version
  connected : connection.connect.errno = system.connectErrno ∧ connection.connect.now = system.connectNow
  canSend : connection.canSend.Answers system.canSendNow
  sends : connection.sends ∈ sendScripts system.sends
  rounds : connection.rounds ∈ roundScripts system.rounds

/-! ### Receiving -/

/-- Where the worker goes on the object is used, and in any case it is held. -/
def Onward (p : Plug κ) (version : IPVersion) (goes : Prop) (k : κ) (s : StackState) : Prop :=
  Idle p version k s ∧ (goes → Live p version k s)

/-- Reading `isValid_` leaves socket, URL and version alone. -/
theorem routinely_loadValid : Routinely loadValid := fun s =>
  (State.Alike.steady s).loadValid not_parsesUrl_of_routine

/-- So does reading the remaining time. -/
theorem routinely_getRemainTime : Routinely getRemainTime := fun _ => keeps_getRemainTime

/-- So does what may throw. -/
theorem routinely_throwing (result : Except Fault α) : Routinely (throwing result) := fun _ =>
  keeps_throwing (fun _ _ _ => trivial) result

/-- So does a call through the socket. -/
theorem routinely_callSocket {call : Call} (hcall : Event.parsesUrl (.call call) = false) :
    Routinely (callSocket call) := fun s =>
  (State.Alike.steady s).callSocket not_parsesUrl_of_routine (fun _ _ _ => trivial) hcall

/-- The ends of a request: `disconnected` and `handleErrorResponse`. -/
inductive EndsRequest : Worker Unit → Prop
  | disconnected : EndsRequest disconnected
  | error (code : ResultCode) (errorCode : Int) : EndsRequest (handleErrorResponse code errorCode)

/-- The end of a request, whatever is known of its object. -/
theorem refines_end {P : κ → StackState → Prop} (hP : Blind P)
    (hidle : ∀ k s, P k s → Idle p version k s) {m : Worker Unit} (hm : EndsRequest m) :
    Program.Refines requestView p.monitor env P (within m) (Set.univ : Set Unit) (fun _ => m)
      fun _ => Idle p version := by
  have hreleases : Releasing (fun _ => False) m := by
    intro s
    have hreleases : Program.Triple s.Alike m (fun _ t => s.Released t) (fun _ _ => True)
        fun e => e.parsesUrl = false := by
      cases hm with
      | disconnected => exact releases_disconnected s
      | error code errorCode => exact releases_handleErrorResponse s code errorCode
    exact hreleases.conseq (fun _ h => h) (fun _ _ h => ⟨h, False.elim⟩) (fun _ _ h => h) fun _ h => h
  exact (refines_within hP hidle hreleases).conseq (fun _ _ h => h) fun _ _ _ h => h.1

/-- An object in use is held. -/
theorem live_idle (k : κ) (s : StackState) (h : Live p version k s) : Idle p version k s := h.idle

/-- The worker reports an error, or the end, and does not go on. -/
theorem refines_stops {P : κ → StackState → Prop} (hP : Blind P) (hidle : ∀ k s, P k s → Idle p version k s)
    {Θ β : Type} {S : Set Θ} (hS : S.Nonempty) {m : Worker Unit} (hm : EndsRequest m) {b : β} {goes : β → Prop}
    (hb : ¬goes b) :
    Program.Refines requestView p.monitor env P (do within m; pure b) S (fun _ => do m; pure b)
      fun b => Onward p version (goes b) :=
  .bind_left hS (refines_end hP hidle hm) fun _ => .pure hS fun _ _ h => ⟨h, fun hgoes => absurd hgoes hb⟩

/-- The end of a request frees the object, and the worker does not go on. -/
theorem refines_stays {Θ β : Type} {S : Set Θ} (hS : S.Nonempty) {m : Worker Unit} (hm : EndsRequest m) {b : β}
    {goes : β → Prop} (hb : ¬goes b) :
    Program.Refines requestView p.monitor env (Live p version) (do within m; pure b) S
      (fun _ => do m; pure b) fun b => Onward p version (goes b) :=
  refines_stops (blind_using _) live_idle hS hm hb

/-- `canReceive`, `canSend`, `send` and `receive` leave the object as it is. -/
theorem refines_callKept {S : Set α} (hS : S.Nonempty) {call : Call} (hcall : ∀ text, call ≠ .parseUrl text)
    {m : Method α} (now : UInt64)
    (hm : ∀ object : ISocket, WatchMethod object (Unmoved object) m fun a fd s => a ∈ S ∧ Unmoved object fd s) :
    Program.Refines requestView p.monitor env (Live p version) (callMethod call m now) S (answered call now)
      fun _ => Live p version := by
  refine refines_callMethod hS hcall now fun object hobject => ?_
  refine (hm object).conseq ?_ fun _ _ _ h => ⟨h.1, h.2.remains, ?_⟩
  · rintro fd s ⟨rfl, hself⟩
    exact ⟨rfl, hself, hobject⟩
  · rw [h.2.2.1]
    exact hobject

/-- What follows a call that leaves the object as it is goes on with the result of the method, whichever script
it has. -/
theorem refines_bindUnmoved {β Θ Θ' : Type} {S : Set α} {T : Set Θ} {T' : Set Θ'} (hS : S.Nonempty) (hT' : T'.Nonempty)
    {call : Call} (hcall : ∀ text, call ≠ .parseUrl text) {m : Method α} (now : UInt64)
    (hm : ∀ object : ISocket, WatchMethod object (Unmoved object) m fun a fd s => a ∈ S ∧ Unmoved object fd s)
    {f : α → Stack β} {g : Θ' → α → Worker β} {n : Θ → Worker β} {R : β → κ → StackState → Prop}
    (hf : ∀ a, Program.Refines requestView p.monitor env (Live p version) (f a) T' (fun θ' => g θ' a) R)
    (hscript : ∀ a ∈ S, ∀ θ' ∈ T', ∃ θ ∈ T, n θ = do callSocket call; returnAt now; g θ' a) :
    Program.Refines requestView p.monitor env (Live p version) (callMethod call m now >>= f) T n R := by
  refine ((refines_callKept hS hcall now hm).bind hT' hf).script ?_
  rintro ⟨a, θ'⟩ ⟨ha, hθ'⟩
  obtain ⟨θ, hθ, hn⟩ := hscript a ha θ' hθ'
  refine ⟨θ, hθ, hn.trans ?_⟩
  simp only [answered, bind_assoc, pure_bind]

/-- Without another reply the wait does not end, and the request does not go on. -/
theorem refines_isReceivable_nil :
    Program.Refines requestView p.monitor env (Live p version) (Stack.isReceivable []) (Set.univ : Set Unit)
      (fun _ => isReceivable []) fun b => Onward p version (b = true) := by
  have hlive : Blind (Live p version) := blind_using _
  have hunit : (Set.univ : Set Unit).Nonempty := Set.univ_nonempty
  unfold isReceivable Stack.isReceivable
  refine .bind_left hunit (refines_lift hlive routinely_loadValid) fun valid => ?_
  refine .ite (fun _ => refines_stays hunit .disconnected Bool.false_ne_true) fun _ => ?_
  refine .bind_left hunit (refines_lift hlive routinely_getRemainTime) fun timeout => ?_
  exact .bind_left hunit (refines_lift hlive (routinely_callSocket rfl)) fun _ => .stop hunit

/-- **Waiting for an answer.** The induction is on the waits, of which each takes a reply of its own. -/
theorem refines_isReceivable (waits : List SystemWait) :
    Program.Refines requestView p.monitor env (Live p version) (Stack.isReceivable waits) (waitScripts waits)
      isReceivable fun b => Onward p version (b = true) := by
  have hends {Θ : Type} {S : Set Θ} (hS : S.Nonempty) {m : Worker Unit} (hm : EndsRequest m) :
      Program.Refines requestView p.monitor env (Live p version) (do within m; pure false) S
        (fun _ => do m; pure false) fun b => Onward p version (b = true) :=
    refines_stays hS hm Bool.false_ne_true
  have hlive : Blind (Live p version) := blind_using _
  induction waits with
  | nil => exact .of_script nil_mem_scripts refines_isReceivable_nil
  | cons wait waits ih =>
    -- the next reply, and the script of what is behind it
    refine .script (S := {reply : WaitReply | reply.Answers wait.now} ×ˢ waitScripts waits)
      (n := fun θ => isReceivable (θ.1 :: θ.2)) ?_ fun θ hθ => ⟨θ.1 :: θ.2, cons_mem_scripts hθ.1 hθ.2, rfl⟩
    have hwaits := waitScripts_nonempty waits
    have hS := (waitAnswers_nonempty wait.now).prod hwaits
    unfold isReceivable Stack.isReceivable
    refine .bind_left hS (refines_lift hlive routinely_loadValid) fun valid => ?_
    refine .ite (fun _ => hends hS .disconnected) fun _ => ?_
    refine .bind_left hS (refines_lift hlive routinely_getRemainTime) fun timeout => ?_
    refine refines_bindUnmoved (S := {result : SocketResult | result.resultCode ∈ selectCodes})
      ⟨{}, by simp [selectCodes]⟩ hwaits (by simp) wait.now (fun object => watch_canReceiveSocket _ _ _)
      (g := fun waits result => do
        if result.isSuccess then pure true
        else do
          let timeout ← getRemainTime
          if decide (0 < timeout) && result.resultCode == .Retry then isReceivable waits
          else do
            handleErrorResponse result.resultCode result.errorCode
            pure false)
      (fun result => ?_) fun result hresult waits hwaits => ⟨(⟨result, wait.now⟩, waits), ⟨⟨hresult, rfl⟩, hwaits⟩, rfl⟩
    refine .ite (fun _ => .pure hwaits fun _ _ hs => ⟨hs.idle, fun _ => hs⟩) fun _ => ?_
    refine .bind_left hwaits (refines_lift hlive routinely_getRemainTime) fun timeout => ?_
    exact .ite (fun _ => ih) fun _ => hends hwaits (.error _ _)

/-- The callback of the head leaves socket, URL and version alone. -/
theorem routinely_responseHeader (header : ResponseHeader) : Routinely (responseHeader header) := fun s =>
  (State.Alike.steady s).responseHeader not_parsesUrl_of_routine header

/-- A pass of `receive`, over any function it may hand over to. -/
theorem refines_receivePass {Θ : Type} {T : Set Θ} (hT : T.Nonempty) {redirect : Bytes → Stack Unit}
    {redirect' : Θ → Bytes → Worker Unit}
    (hredirect : ∀ url, Program.Refines requestView p.monitor env (Idle p version) (redirect url) T
      (fun θ => redirect' θ url) fun _ => Idle p version) (st : ReceiveState) (round : SystemRound) :
    Program.Refines requestView p.monitor env (Live p version) (Stack.receivePass redirect st round)
      ({reply : ReceiveReply | reply.Answers round} ×ˢ T) (fun θ => receivePass (redirect' θ.2) st θ.1)
      fun next => Onward p version (next.isSome = true) := by
  have hlive : Blind (Live p version) := blind_using _
  have hgoes (st : ReceiveState) : Program.Refines requestView p.monitor env (Live p version)
      (pure (some st)) T (fun _ => pure (some st)) fun next => Onward p version (next.isSome = true) :=
    .pure hT fun _ _ hs => ⟨hs.idle, fun _ => hs⟩
  have hends {m : Worker Unit} (hm : EndsRequest m) :
      Program.Refines requestView p.monitor env (Live p version) (do within m; pure none) T
        (fun _ => do m; pure none) fun next : Option ReceiveState => Onward p version (next.isSome = true) :=
    refines_stays hT hm Bool.false_ne_true
  have hbody (st : ReceiveState) (dataPtr : Data) (isCompleted : Bool) :
      Program.Refines requestView p.monitor env (Live p version) (within (receiveBody st dataPtr isCompleted)) T
        (fun _ => receiveBody st dataPtr isCompleted) fun next => Onward p version (next.isSome = true) := by
    obtain ⟨θ, hθ⟩ := hT
    exact .of_script hθ (refines_within hlive live_idle fun s => releases_receiveBody s st dataPtr isCompleted)
  unfold Stack.receivePass
  apply refines_bindUnmoved (S := {result : SocketResult × Bytes | Received round.outcomes result})
      ⟨({ resultCode := .Failed }, []), received_nil .Failed (by decide) (by decide) 0⟩ hT (by simp)
      round.now (fun object => watch_receiveSocket _)
  case hscript =>
    intro result hresult θ hθ
    exact ⟨(⟨result.1, result.2, round.now⟩, θ), ⟨⟨hresult, rfl⟩, hθ⟩, rfl⟩
  rintro ⟨recvResult, data⟩
  dsimp only
  refine .ite (fun _ => .ite (fun _ => hgoes st) fun _ => ?_) fun _ => .ite (fun _ => ?_) fun _ => hbody _ _ _
  · exact .ite (fun _ => hends .disconnected) fun _ => hends (.error _ _)
  · refine .bind_left hT (refines_lift hlive (routinely_throwing _)) fun head => .ite (fun _ => hgoes _) fun _ => ?_
    refine .bind_left hT refines_lift_state fun s => ?_
    refine .conseq (P := Live p version) (.ite (fun _ => ?_) fun _ => ?_) (fun _ _ hs => hs.2) fun _ _ _ hs => hs
    · refine .bind_right ((hredirect _).conseq live_idle fun _ _ _ hs => hs) fun _ => ?_
      exact .pure Set.univ_nonempty fun _ _ hs => ⟨hs, by simp⟩
    · refine .bind_left hT (refines_lift hlive (routinely_throwing _)) fun contentLength => ?_
      exact .bind_left hT (refines_lift hlive (routinely_responseHeader _)) fun _ => hbody _ _ _

/-- A pass that goes on has not handed over. -/
theorem alikeWhere_receivePass (redirect redirect' : Bytes → Worker Unit) (st : ReceiveState)
    (reply : ReceiveReply) :
    Program.AlikeWhere (fun next => next.isSome = true) (receivePass redirect st reply)
      (receivePass redirect' st reply) := by
  refine .bind fun _ => .bind fun _ => .ite .refl (.ite ?_ .refl)
  refine .bind fun head => .ite .refl (.bind fun s => .ite ?_ .refl)
  exact .bind_pure Bool.false_ne_true

/-- Receiving from the system refines receiving by a script, by induction on the rounds. -/
theorem refines_receiveLoop {Θ : Type} {T : Set Θ} (hT : T.Nonempty) {redirect : Bytes → Stack Unit}
    {redirect' : Θ → Bytes → Worker Unit}
    (hredirect : ∀ url, Program.Refines requestView p.monitor env (Idle p version) (redirect url) T
      (fun θ => redirect' θ url) fun _ => Idle p version) (rounds : List SystemRound) :
    ∀ st : ReceiveState, Program.Refines requestView p.monitor env (Live p version)
      (Stack.receiveLoop redirect rounds st) (roundScripts rounds ×ˢ T)
      (fun θ => receiveLoop (redirect' θ.2) θ.1 st) fun _ => Idle p version := by
  induction rounds with
  | nil =>
    intro st
    obtain ⟨θ, hθ⟩ := hT
    refine .of_script (θ := ([], θ)) ⟨nil_mem_scripts, hθ⟩ ?_
    exact .bind_right refines_isReceivable_nil fun _ => .pure Set.univ_nonempty fun _ _ hs => hs.1
  | cons round rounds ih =>
    intro st
    have hrounds := roundScripts_nonempty rounds
    have hrest : ({reply : ReceiveReply | reply.Answers round} ×ˢ roundScripts rounds ×ˢ T).Nonempty :=
      (receiveAnswers_nonempty round).prod (hrounds.prod hT)
    unfold Stack.receiveLoop
    apply Program.Refines.bind_script hrest (refines_isReceivable round.waits)
    case hscript =>
      rintro waits hwaits θ ⟨hreply, hrounds, hθ⟩
      refine ⟨(⟨waits, θ.1⟩ :: θ.2.1, θ.2.2), ⟨cons_mem_scripts ⟨hwaits, hreply⟩ hrounds, hθ⟩, ?_⟩
      rw [receiveLoop]
      dsimp only
    intro receivable
    refine .ite (fun _ => .pure hrest fun _ _ hs => hs.1) fun hreceivable => ?_
    have hpass : Program.Refines requestView p.monitor env (Onward p version (receivable = true))
        (Stack.receivePass redirect st round) ({reply : ReceiveReply | reply.Answers round} ×ˢ T)
        (fun θ => receivePass (redirect' θ.2) st θ.1) fun next => Onward p version (next.isSome = true) := by
      refine (refines_receivePass hT hredirect st round).conseq (fun _ _ hs => hs.2 ?_) fun _ _ _ hs => hs
      simpa using hreceivable
    apply Program.Refines.bind_shared (n := fun reply θ => receivePass (redirect' θ) st reply) hrounds hpass
      fun reply θ₁ θ₂ => alikeWhere_receivePass _ _ st reply
    case hscript =>
      intro reply hreply rounds hrounds θ hθ
      refine ⟨(reply, rounds, θ), ⟨hreply, hrounds, hθ⟩, ?_⟩
      dsimp only
    case hmore =>
      intro next hnext
      cases next with
      | none => cases hnext
      | some st => exact (ih st).conseq (fun _ _ hs => hs.2 hnext) fun _ _ _ hs => hs
    case hdone =>
      intro next hnext
      cases next with
      | none => exact ⟨(), rfl, fun _ _ => rfl, fun _ _ hs => hs.1⟩
      | some st => exact absurd rfl hnext

/-! ### Sending -/

/-- Sending to the system refines sending by a script, by induction on the sends. -/
theorem refines_sendLoop (sends : List SystemSend) : ∀ dataView : Bytes,
    Program.Refines requestView p.monitor env (Live p version) (Stack.sendLoop sends dataView) (sendScripts sends)
      (fun θ => sendLoop θ dataView) fun b => Onward p version (b = true) := by
  have hlive : Blind (Live p version) := blind_using _
  induction sends with
  | nil =>
    intro dataView
    have hunit : (Set.univ : Set Unit).Nonempty := Set.univ_nonempty
    refine .of_script nil_mem_scripts ?_
    exact .bind_left hunit (refines_lift hlive (routinely_callSocket rfl)) fun _ => .stop hunit
  | cons reply sends ih =>
    intro dataView
    have hsends := sendScripts_nonempty sends
    have hgoes : Program.Refines requestView p.monitor env (Live p version) (pure true) (sendScripts sends)
        (fun _ => pure true) fun b => Onward p version (b = true) :=
      .pure hsends fun _ _ hs => ⟨hs.idle, fun _ => hs⟩
    unfold Stack.sendLoop
    apply refines_bindUnmoved (S := {result : SocketResult × Int | ∃ kind, Sent kind reply.outcomes result})
      ⟨({ resultCode := .Failed }, 0), .PlainSocket, sent_failed .Failed (by decide) (by decide) 0 le_rfl⟩ hsends
      (by simp) reply.now
      (fun object => (watch_sendSocket _ _).conseq (fun _ _ hs => hs) fun _ _ _ hs => ⟨⟨object.kind, hs.1⟩, hs.2⟩)
    case hscript =>
      intro result hresult θ hθ
      refine ⟨⟨result.1, result.2, reply.now⟩ :: θ, cons_mem_scripts ⟨hresult, rfl⟩ hθ, ?_⟩
      rw [sendLoop]
    rintro ⟨sendResult, sendSize⟩
    dsimp only
    refine .ite (fun _ => refines_stays hsends (.error _ _) Bool.false_ne_true) fun _ => ?_
    refine .ite (fun _ => ?_) fun _ => hgoes
    refine .bind_left hsends (refines_lift hlive (routinely_throwing _)) fun dataView => ?_
    exact .ite (fun _ => ih dataView) fun _ => hgoes

/-- Changing the request. -/
theorem refines_lift_update {P Q : κ → StackState → Prop} {f : State → State}
    (h : ∀ k t, P k t → Q k { t with request := f t.request }) :
    Program.Refines requestView p.monitor env P (lift (Program.update f)) (Set.univ : Set Unit)
      (fun _ => Program.update f) fun _ => Q := by
  refine .lift Set.univ_nonempty fun k t ht => ⟨trivial, ?_⟩
  rintro _ ⟨⟩
  exact h k t ht

/-- So does `send` with the wait in front of it. -/
theorem refines_send (connection : SystemConnection) :
    Program.Refines requestView p.monitor env (Live p version) (Stack.send connection)
      ({canSend : WaitReply | canSend.Answers connection.canSendNow} ×ˢ sendScripts connection.sends)
      (fun θ => send θ.1 θ.2)
      fun b => Onward p version (b = true) := by
  have hlive : Blind (Live p version) := blind_using _
  have hsends := sendScripts_nonempty connection.sends
  have hS := (waitAnswers_nonempty connection.canSendNow).prod hsends
  unfold Stack.send send
  refine .bind_left hS (refines_lift hlive routinely_getRemainTime) fun timeout => ?_
  apply refines_bindUnmoved (S := {result : SocketResult | result.resultCode ∈ selectCodes})
    ⟨{}, by simp [selectCodes]⟩ hsends (by simp) connection.canSendNow (fun object => watch_select_kept _ _ _)
  case hscript =>
    intro result hresult θ hθ
    exact ⟨(⟨result, connection.canSendNow⟩, θ), ⟨⟨hresult, rfl⟩, hθ⟩, rfl⟩
  intro canSend
  refine .ite (fun _ => refines_stays hsends (.error _ _) Bool.false_ne_true) fun _ => .bind_read ?_
  refine .bind_left hsends refines_lift_state fun s => ?_
  -- `htmlEncode` changes the headers only
  refine .bind_left hsends (refines_lift_update (Q := Live p version) ?_) fun _ => refines_sendLoop _ _
  rintro k t ⟨rfl, ⟨hsocket, hversion⟩, hlive⟩
  exact ⟨⟨hsocket, hversion⟩, hlive⟩

end HttpRequest
