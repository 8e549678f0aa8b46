import HttpRequest.Redirects.Limit
import HttpRequest.Stack.Exchanges

/-! # Descriptors of a run

The descriptors a run of the stack opens and closes are a table that its events fill and empty. As long as the
system hands out descriptors that are not open, no call is made on a closed one; a run of any length never has
more than two descriptors of plain sockets open, and none once its destructor has returned (`descriptors_lifetime`). -/

namespace HttpRequest

open Foundations

/-! ### The table -/

/-- The open descriptors, by the class of the socket they have been created for. -/
structure Table where
  plain : Finset Nat
  tls : Finset Nat

namespace Table

/-- No descriptor is open. -/
def empty : Table := ⟨∅, ∅⟩

/-- The descriptors that are open. -/
def opened (self : Table) : Finset Nat := self.plain ∪ self.tls

/-- The table after an event. -/
def next (self : Table) : StackEvent → Table
  | .created .PlainSocket fd => { self with plain := fd.toFinset ∪ self.plain }
  | .created .TSLSocket fd => { self with tls := fd.toFinset ∪ self.tls }
  | .system _ (.close fd) => ⟨self.plain.erase fd, self.tls.erase fd⟩
  | .system _ _ | .request _ => self

/-- The table after some events. -/
def after (es : List StackEvent) : Table := es.foldl next empty

/-- The system hands out a descriptor that is not open. -/
def Fresh (self : Table) : StackEvent → Prop
  | .created _ (some fd) => fd ∉ self.opened
  | .created _ none | .system _ _ | .request _ => True

/-- The descriptors that the system hands out are not open. -/
def FreshIn (es : List StackEvent) : Prop := (⟨next, Fresh⟩ : Monitor Table StackEvent).Accepts empty es

/-- A call is made on an open descriptor, the one that is closed if one is. `SSL_free` needs none. -/
def Permits (self : Table) (fd : Option Nat) (call : Syscall) : Prop :=
  call = .SSL_free ∨ ∃ d ∈ self.opened, fd = some d ∧ ∀ closed, call = .close closed → closed = d

/-- What a run does at an event: its calls are permitted, and with a new descriptor at most two of plain sockets
are open. -/
def Keeps (self : Table) : StackEvent → Prop
  | .system fd call => self.Permits fd call
  | .created kind fd => (self.next (.created kind fd)).plain.card ≤ 2
  | .request _ => True

/-- The descriptor of an object of a class is open, and no other of a plain socket is. -/
def Holds (self : Table) : SocketKind → Option Nat → Prop
  | .PlainSocket, fd => self.plain = fd.toFinset
  | .TSLSocket, fd => self.plain = ∅ ∧ ∀ d, fd = some d → d ∈ self.tls

/-- The same for the object that is held, if there is one. -/
def HoldsObject (self : Table) : Option ISocket → Prop
  | none => self.plain = ∅
  | some object => self.Holds object.kind object.socket_

variable {self : Table}

/-- The descriptor of the object is open. -/
theorem Holds.mem_opened {kind : SocketKind} {d : Nat} (h : self.Holds kind (some d)) : d ∈ self.opened := by
  cases kind with
  | PlainSocket =>
    have hplain : self.plain = {d} := h
    rw [opened, hplain]
    exact Finset.mem_union_left _ (Finset.mem_singleton_self d)
  | TSLSocket => exact Finset.mem_union_right _ (h.2 d rfl)

/-- One plain descriptor is open at most. -/
theorem Holds.card_plain_le {kind : SocketKind} {fd : Option Nat} (h : self.Holds kind fd) :
    self.plain.card ≤ 1 := by
  cases kind with
  | PlainSocket =>
    have hplain : self.plain = fd.toFinset := h
    rw [hplain, Option.card_toFinset]
    cases fd <;> simp
  | TSLSocket =>
    rw [h.1]
    exact Nat.zero_le 1

/-- The descriptor of a class is closed. -/
theorem Holds.close {kind : SocketKind} {d : Nat} (h : self.Holds kind (some d)) :
    (⟨self.plain.erase d, self.tls.erase d⟩ : Table).Holds kind none := by
  cases kind with
  | PlainSocket =>
    have hplain : self.plain = {d} := h
    show self.plain.erase d = ∅
    rw [hplain, Finset.erase_singleton]
  | TSLSocket =>
    refine ⟨?_, nofun⟩
    show self.plain.erase d = ∅
    rw [h.1, Finset.erase_empty]

/-- A call of a method keeps the table, and what it closes leaves it. -/
theorem Holds.next_system {kind : SocketKind} {fd : Option Nat} (h : self.Holds kind fd) (call : Syscall)
    (hcall : (methodMonitor kind).allows fd call) :
    self.Keeps (.system fd call) ∧ (self.next (.system fd call)).Holds kind (descriptorBehind fd call) := by
  have hneeds := hcall.2
  cases call with
  | close closed =>
    have hfd : fd = some closed := hneeds
    subst hfd
    exact ⟨.inr ⟨closed, h.mem_opened, rfl, fun _ hclosed => (Syscall.close.inj hclosed).symm⟩, h.close⟩
  | SSL_free => exact ⟨.inl rfl, h⟩
  | getFlags | setFlags | setNoSigPipe | connect | select | getsockopt | send | recv | SSL_connect | SSL_write
  | SSL_read | SSL_shutdown =>
    obtain ⟨d, rfl⟩ := Option.ne_none_iff_exists'.mp hneeds
    exact ⟨.inr ⟨d, h.mem_opened, rfl, nofun⟩, h⟩

/-- The table with the assumption that it is fed with fresh descriptors. -/
def monitor : Monitor (Table × Prop) StackEvent := Monitor.assuming next Fresh Keeps

/-- Freeing an object closes the descriptor of a plain socket. -/
theorem HoldsObject.freed {object : ISocket} (h : self.HoldsObject (some object)) :
    (⟨next, Keeps⟩ : Monitor Table StackEvent).Accepts self (freeEvents object) ∧
      ((freeEvents object).foldl next self).HoldsObject none := by
  obtain ⟨kind, version, socket, ssl⟩ := object
  have hholds : self.Holds kind socket := h
  cases kind with
  | PlainSocket =>
    cases socket with
    | none => exact ⟨trivial, hholds⟩
    | some d =>
      obtain ⟨hkeeps, hnext⟩ := hholds.next_system (.close d) ⟨rfl, rfl⟩
      exact ⟨⟨hkeeps, trivial⟩, hnext⟩
  | TSLSocket =>
    cases ssl with
    | none => exact ⟨trivial, hholds.1⟩
    | some ssl =>
      obtain ⟨hkeeps, hnext⟩ := hholds.next_system .SSL_free ⟨rfl, trivial⟩
      exact ⟨⟨hkeeps, trivial⟩, hnext.1⟩

/-- A new object holds the descriptor it was created with. -/
theorem Holds.created (h : self.plain = ∅) (kind : SocketKind) (fd : Option Nat) :
    (self.next (.created kind fd)).Holds kind fd := by
  cases kind with
  | PlainSocket =>
    show fd.toFinset ∪ self.plain = fd.toFinset
    rw [h, Finset.union_empty]
  | TSLSocket =>
    refine ⟨h, ?_⟩
    rintro d rfl
    exact Finset.mem_union_left _ (Finset.mem_singleton_self d)

/-- A fresh descriptor stands beside that of a plain socket until this one is closed. -/
theorem Holds.created_close {kind : SocketKind} {d : Nat} (h : self.plain = {d}) {fd : Option Nat}
    (hfresh : self.Fresh (.created kind fd)) :
    self.Keeps (.created kind fd) ∧ (self.next (.created kind fd)).Keeps (.system (some d) (.close d)) ∧
      ((self.next (.created kind fd)).next (.system (some d) (.close d))).Holds kind fd := by
  have hplain : (self.next (.created kind fd)).plain ⊆ fd.toFinset ∪ {d} := by
    cases kind with
    | PlainSocket => exact (congrArg (fd.toFinset ∪ ·) h).subset
    | TSLSocket => exact h.subset.trans Finset.subset_union_right
  have hcard : (self.next (.created kind fd)).plain.card ≤ 2 := by
    refine (Finset.card_le_card hplain).trans ((Finset.card_union_le _ _).trans ?_)
    cases fd <;> simp
  have hmem : d ∈ (self.next (.created kind fd)).opened := by
    have hd : d ∈ self.plain := h ▸ Finset.mem_singleton_self d
    cases kind with
    | PlainSocket => exact Finset.mem_union_left _ (Finset.mem_union_right _ hd)
    | TSLSocket => exact Finset.mem_union_left _ hd
  have hne : ∀ fd', fd = some fd' → fd' ≠ d := by
    rintro fd' rfl rfl
    exact hfresh (Finset.mem_union_left _ (h ▸ Finset.mem_singleton_self _))
  refine ⟨hcard, .inr ⟨d, hmem, rfl, fun _ hclosed => (Syscall.close.inj hclosed).symm⟩, ?_⟩
  · cases kind with
    | PlainSocket =>
      show (fd.toFinset ∪ self.plain).erase d = fd.toFinset
      rw [h, Finset.erase_union_distrib, Finset.erase_singleton, Finset.union_empty]
      exact Finset.erase_eq_of_notMem fun hd => hne d (Option.mem_toFinset.mp hd) rfl
    | TSLSocket =>
      refine ⟨?_, ?_⟩
      · show self.plain.erase d = ∅
        rw [h, Finset.erase_singleton]
      · rintro fd' rfl
        exact Finset.mem_erase.mpr ⟨hne fd' rfl, Finset.mem_union_left _ (Finset.mem_singleton_self fd')⟩

/-- A new object takes the place of the old one. -/
theorem HoldsObject.created {object : Option ISocket} (h : self.HoldsObject object) {kind : SocketKind}
    {fd : Option Nat} (hfresh : self.Fresh (.created kind fd)) :
    self.Keeps (.created kind fd) ∧
      (⟨next, Keeps⟩ : Monitor Table StackEvent).Accepts (self.next (.created kind fd))
        ((object.map freeEvents).getD []) ∧
      (((object.map freeEvents).getD []).foldl next (self.next (.created kind fd))).Holds kind fd := by
  have hempty (hplain : self.plain = ∅) :
      self.Keeps (.created kind fd) ∧ (self.next (.created kind fd)).Holds kind fd := by
    have hholds := Holds.created hplain kind fd
    exact ⟨hholds.card_plain_le.trans (Nat.le_succ 1), hholds⟩
  cases object with
  | none =>
    obtain ⟨hkeeps, hholds⟩ := hempty h
    exact ⟨hkeeps, trivial, hholds⟩
  | some object =>
    obtain ⟨kind', version, socket, ssl⟩ := object
    have hheld : self.Holds kind' socket := h
    cases kind' with
    | PlainSocket =>
      cases socket with
      | none =>
        obtain ⟨hkeeps, hholds⟩ := hempty hheld
        exact ⟨hkeeps, trivial, hholds⟩
      | some d =>
        obtain ⟨hkeeps, hclose, hholds⟩ := Holds.created_close hheld hfresh
        exact ⟨hkeeps, ⟨hclose, trivial⟩, hholds⟩
    | TSLSocket =>
      obtain ⟨hkeeps, hholds⟩ := hempty hheld.1
      cases ssl with
      | none => exact ⟨hkeeps, trivial, hholds⟩
      | some ssl => exact ⟨hkeeps, ⟨.inl rfl, trivial⟩, hholds⟩

end Table

/-! ### The plug -/

/-- The table of a run: what is held has its descriptor in it. -/
def tablePlug : Plug (Table × Prop) where
  monitor := Table.monitor
  idle k _ object := k.2 → k.1.HoldsObject object
  used k _ kind fd := k.2 → k.1.Holds kind fd
  routine k e _ := ⟨fun _ _ => trivial, Prod.ext rfl (and_true _)⟩
  parsed k url object text h := ⟨fun _ _ => trivial, fun hseen => h hseen.1⟩
  freed k url object h := by
    refine ⟨Monitor.accepts_assuming _ _ _ fun hseen => (h hseen).freed.1, fun hseen => ?_⟩
    rw [Table.monitor, Monitor.after_assuming_fst]
    exact (h ((Monitor.after_assuming_snd _ _ _).mp hseen).1).freed.2
  created k url object fd h := by
    refine ⟨⟨fun hseen hfresh => ((h hseen).created hfresh).1, ?_⟩, fun hseen => ?_⟩
    · exact Monitor.accepts_assuming _ _ _ fun hseen => ((h hseen.1).created hseen.2).2.1
    · rw [Monitor.after_cons] at hseen ⊢
      obtain ⟨⟨hseen, hfresh⟩, -⟩ := (Monitor.after_assuming_snd _ _ _).mp hseen
      rw [Table.monitor, Monitor.after_assuming_fst]
      exact ((h hseen).created hfresh).2.2
  called k url kind fd call h hcall :=
    ⟨fun hseen _ => ((h hseen).next_system call hcall).1, fun hseen => ((h hseen.1).next_system call hcall).2⟩
  ended k url object h := h

/-- At most two descriptors of plain sockets are open all the way. -/
theorem Table.card_plain_le {self : Table} {es : List StackEvent}
    (h : (⟨next, Keeps⟩ : Monitor Table StackEvent).Accepts self es) (hself : self.plain.card ≤ 2) :
    (es.foldl next self).plain.card ≤ 2 := by
  induction es generalizing self with
  | nil => exact hself
  | cons e es ih =>
    refine ih h.2 ?_
    cases e with
    | request e => exact hself
    | created kind fd => exact h.1
    | system fd call =>
      cases call with
      | close closed => exact Finset.card_erase_le.trans hself
      | _ => exact hself

/-- **The descriptors of a request**, over a system that hands out descriptors that are not open: every call is
made on an open descriptor; never more than two of plain sockets are open, those of an object and of the one
that takes its place; and once the destructor has returned, none of them is. -/
theorem descriptors_lifetime (env : Env) (systems : List SystemConnection) (info : RequestInfo)
    (handler : ResponseHandler) (now : UInt64) (cancelIn : Option Nat)
    (hfresh : Table.FreshIn ((Stack.lifetime systems).run env (.initial info handler now cancelIn)).events) :
    let r := (Stack.lifetime systems).run env (.initial info handler now cancelIn)
    (∀ front fd call rest, r.events = front ++ .system fd call :: rest → (Table.after front).Permits fd call) ∧
    (∀ front rest, r.events = front ++ rest → (Table.after front).plain.card ≤ 2) ∧
    (r.outcome = .ok () → (Table.after r.events).plain = ∅) := by
  intro r
  obtain ⟨haccepts, hreturns⟩ :=
    plugged_lifetime tablePlug (k := (Table.empty, True)) (fun _ => rfl) env systems info handler now cancelIn
  have hkeeps := Monitor.accepts_of_assuming _ _ _ haccepts hfresh
  refine ⟨?_, ?_, fun houtcome => ?_⟩
  · intro front fd call rest hevents
    have hsplit : (⟨Table.next, Table.Keeps⟩ : Monitor Table StackEvent).Accepts .empty
        (front ++ .system fd call :: rest) := hevents ▸ hkeeps
    exact hsplit.allows
  · intro front rest hevents
    have hsplit : (⟨Table.next, Table.Keeps⟩ : Monitor Table StackEvent).Accepts .empty (front ++ rest) :=
      hevents ▸ hkeeps
    exact Table.card_plain_le ((Monitor.accepts_append _ _ _ _).mp hsplit).1 (Nat.zero_le 2)
  · obtain ⟨_, hidle⟩ := hreturns houtcome
    have hholds := hidle ((Monitor.after_assuming_snd _ _ _).mpr ⟨trivial, hfresh⟩)
    have htable : (Table.monitor.after (.empty, True) r.events).1 = Table.after r.events :=
      Monitor.after_assuming_fst _ _ _ _ _ _
    rw [← htable]
    exact hholds

/-- The descriptors the system hands out in a run. -/
def handedOut (es : List StackEvent) : List Nat :=
  es.filterMap fun
    | .created _ fd => fd
    | .system _ _ | .request _ => none

/-- What is open has been open or was handed out now. -/
theorem Table.mem_opened_next {self : Table} {e : StackEvent} {d : Nat} (h : d ∈ (self.next e).opened) :
    d ∈ self.opened ∨ d ∈ handedOut [e] := by
  cases e with
  | request e => exact .inl h
  | created kind fd =>
    have hnext : d ∈ fd.toFinset ∨ d ∈ self.opened := by
      cases kind <;> simpa [opened, next, or_assoc, or_comm, or_left_comm] using h
    refine hnext.symm.imp_right fun hd => ?_
    rw [Option.mem_toFinset.mp hd]
    exact List.mem_singleton_self d
  | system fd call =>
    cases call with
    | close closed =>
      have hnext : d ≠ closed ∧ d ∈ self.opened := by simpa [opened, next, ← and_or_left] using h
      exact .inl hnext.2
    | _ => exact .inl h

/-- A system that hands out no descriptor twice hands out fresh ones. -/
theorem Table.freshIn_of_nodup {es : List StackEvent} (h : (handedOut es).Nodup) : FreshIn es := by
  suffices hgeneral : ∀ self : Table, (∀ d ∈ self.opened, d ∉ handedOut es) →
      (⟨next, Fresh⟩ : Monitor Table StackEvent).Accepts self es from
    hgeneral .empty fun d hd => by simp [opened, empty] at hd
  induction es with
  | nil => exact fun _ _ => trivial
  | cons e es ih =>
    intro self hself
    have hcons : handedOut (e :: es) = handedOut [e] ++ handedOut es := by
      simp only [handedOut, ← List.filterMap_append, List.singleton_append]
    rw [hcons] at h hself
    obtain ⟨-, hes, hdisjoint⟩ := List.nodup_append.mp h
    refine ⟨?_, ih hes _ fun d hd => ?_⟩
    · cases e with
      | request e => trivial
      | system fd call => trivial
      | created kind fd =>
        cases fd with
        | none => trivial
        | some fd => exact fun hopened => hself fd hopened (List.mem_append_left _ (List.mem_singleton_self fd))
    · rcases mem_opened_next hd with hd | hd
      · exact fun hes => hself d hd (List.mem_append_right _ hes)
      · exact fun hes => hdisjoint d hd d hes rfl

/-- A connection on which the system lets everything succeed at once. -/
def SystemConnection.prompt (fd : Nat) (sendSize : Int) (outcomes : List ReadOutcome) : SystemConnection where
  family := some .AF_INET
  socket := some fd
  connect := { address := none, connect := none }
  canSend := some ⟨.ready, 0⟩
  sends := [⟨[⟨sendSize, 0⟩], 0⟩]
  rounds := outcomes.map fun outcome => ⟨[⟨0, some ⟨.ready, 0⟩, 0⟩], [outcome], 0⟩

/-- A server that redirects `http://a/` to itself, and then answers without a body and closes. -/
def circularSystem : List SystemConnection :=
  [.prompt 3 27 [.bytes (bytes "HTTP/1.1 301 Moved Permanently\r\nLocation: http://a/\r\n\r\n")],
    .prompt 4 27 [.bytes unsizedHead, .bytes []]]

/-- Two descriptors, one behind the other. -/
theorem descriptors_lifetime_circular :
    let r := (Stack.lifetime circularSystem).run .plain (.initial circularRequest .all 0 none)
    (∀ front fd call rest, r.events = front ++ .system fd call :: rest → (Table.after front).Permits fd call) ∧
    (∀ front rest, r.events = front ++ rest → (Table.after front).plain.card ≤ 2) ∧
    (r.outcome = .ok () → (Table.after r.events).plain = ∅) := by
  have hhanded : handedOut ((Stack.lifetime circularSystem).run .plain
      (.initial circularRequest .all 0 none)).events = [3, 4] := by rfl
  refine descriptors_lifetime .plain circularSystem circularRequest .all 0 none (Table.freshIn_of_nodup ?_)
  rw [hhanded]
  decide

end HttpRequest
