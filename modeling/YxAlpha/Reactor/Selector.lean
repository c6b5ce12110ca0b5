import Mathlib.Logic.Function.Basic
import Mathlib.Data.Nat.Notation

/-!
# Selectors and event handlers

A `Selector` is `reactor/selector.h` with what the kernel keeps behind its `epollfd_`: the
interest list, which holds for a descriptor the handler that was registered with it and the
events it was last given.  `epoll_ctl` fails on a descriptor that is there already, or not
there; the selector logs this and goes on, so `errors` is all that is left of it.

A handler knows its own `events_`, and each of its calls hands them on.  `HandlerCall.track`
says where such a call takes a handler that is registered properly, and `Tracks` that the
interest lists hold nothing but handlers that are, under their descriptors and with their
events (`Tracks.call`).
-/

namespace YxAlpha

/-- The `events` of an `epoll_event`. -/
abbrev EpollEvents := BitVec 32

def EPOLLIN : EpollEvents := 0x001#32
def EPOLLPRI : EpollEvents := 0x002#32
def EPOLLOUT : EpollEvents := 0x004#32
def EPOLLERR : EpollEvents := 0x008#32
def EPOLLHUP : EpollEvents := 0x010#32
def EPOLLRDHUP : EpollEvents := 0x2000#32

/-! ## Event handlers -/

structure EventHandler where
  fd : ℕ
  dispatcher : ℕ
  events : EpollEvents
  deriving DecidableEq, Repr

namespace EventHandler

def kRead : EpollEvents := EPOLLIN ||| EPOLLPRI
def kWrite : EpollEvents := EPOLLOUT
def kNone : EpollEvents := 0#32

def new (fd dispatcher : ℕ) : EventHandler := ⟨fd, dispatcher, kNone⟩

variable (h : EventHandler)

def setCareRead : EventHandler := { h with events := h.events ||| kRead }
def setCareWrite : EventHandler := { h with events := h.events ||| kWrite }
def setStopCareRead : EventHandler := { h with events := h.events &&& ~~~kRead }
def setStopCareWrite : EventHandler := { h with events := h.events &&& ~~~kWrite }
def setStopCareAll : EventHandler := { h with events := h.events &&& kNone }

end EventHandler

/-- The calls of a handler that reach the selector of its dispatcher. -/
inductive HandlerCall
  /-- `EventHandler::EventHandler`. -/
  | construct (fd dispatcher : ℕ)
  | setCareRead
  | setCareWrite
  | setStopCareRead
  | setStopCareWrite
  | setStopCareAll
  /-- `Dispatcher::RemoveEventHandler`. -/
  | remove
  deriving DecidableEq, Repr

namespace HandlerCall

/-- What a call makes of the handler. -/
def apply (h : EventHandler) : HandlerCall → EventHandler
  | construct fd dispatcher => .new fd dispatcher
  | setCareRead => h.setCareRead
  | setCareWrite => h.setCareWrite
  | setStopCareRead => h.setStopCareRead
  | setStopCareWrite => h.setStopCareWrite
  | setStopCareAll => h.setStopCareAll
  | remove => h

end HandlerCall

/-! ## Selectors -/

inductive EpollErrno
  | eexist | enoent
  deriving DecidableEq, Repr

structure Selector where
  /-- The handlers of the interest list, as `data.ptr`, with their events. -/
  interest : ℕ → Option (ℕ × EpollEvents)
  eEventsSize : ℕ
  /-- The calls of `epoll_ctl` that have failed. -/
  errors : List EpollErrno

namespace Selector

def kEEventsSize : ℕ := 128

def new : Selector := ⟨fun _ => none, kEEventsSize, []⟩

variable (s : Selector)

def setInterest (fd : ℕ) (entry : Option (ℕ × EpollEvents)) : Selector :=
  { s with interest := Function.update s.interest fd entry }

def fail (errno : EpollErrno) : Selector := { s with errors := s.errors ++ [errno] }

/-- `epoll_ctl` with `EPOLL_CTL_ADD`. -/
def addEvent (id : ℕ) (h : EventHandler) : Selector :=
  match s.interest h.fd with
  | none => s.setInterest h.fd (some (id, h.events))
  | some _ => s.fail .eexist

/-- `epoll_ctl` with `EPOLL_CTL_DEL`. -/
def deleteEvent (h : EventHandler) : Selector :=
  match s.interest h.fd with
  | some _ => s.setInterest h.fd none
  | none => s.fail .enoent

/-- `epoll_ctl` with `EPOLL_CTL_MOD`. -/
def modifyEvent (id : ℕ) (h : EventHandler) : Selector :=
  match s.interest h.fd with
  | some _ => s.setInterest h.fd (some (id, h.events))
  | none => s.fail .enoent

/-- `UpdataOneEventHandler` for the handler `h` of `id`, by the call that needs it. -/
def updataOneEventHandler (id : ℕ) (h : EventHandler) : HandlerCall → Selector
  | .construct _ _ => s.addEvent id h
  | .remove => s.deleteEvent h
  | _ => s.modifyEvent id h

/-- The kernel drops a descriptor that is closed. -/
def close (fd : ℕ) : Selector := s.setInterest fd none

/-- `Select` makes room when `epoll_wait` has filled all of `e_events_`. -/
def select (ret : ℕ) : Selector :=
  if ret = s.eEventsSize then { s with eEventsSize := s.eEventsSize * 2 } else s

end Selector

/-! ## Tracking -/

/-- The handlers of all dispatchers, with their selectors. -/
structure Reactors where
  handlers : ℕ → EventHandler
  selectors : ℕ → Selector

namespace Reactors

def new : Reactors := ⟨fun _ => .new 0 0, fun _ => .new⟩

variable (r : Reactors)

def call (id : ℕ) (call : HandlerCall) : Reactors :=
  let h := call.apply (r.handlers id)
  { handlers := Function.update r.handlers id h
    selectors := Function.update r.selectors h.dispatcher
      ((r.selectors h.dispatcher).updataOneEventHandler id h call) }

def calls (id : ℕ) (made : List HandlerCall) : Reactors :=
  made.foldl (fun r call => r.call id call) r

/-- The descriptor is closed; no other is open under its number. -/
def close (fd : ℕ) : Reactors := { r with selectors := fun l => (r.selectors l).close fd }

def select (l ret : ℕ) : Reactors :=
  { r with selectors := Function.update r.selectors l ((r.selectors l).select ret) }

end Reactors

/-- Where a call takes a handler that is registered, as it is, or not at all; `none` if it must
not be made. -/
def HandlerCall.track : Option EventHandler → HandlerCall → Option (Option EventHandler)
  | none, .construct fd dispatcher => some (some (.new fd dispatcher))
  | some _, .construct _ _ => none
  | some _, .remove => some none
  | some h, call => some (some (call.apply h))
  | none, _ => none

/-- The calls of a handler, one behind the other. -/
def HandlerCall.trackAll (h : Option EventHandler) (made : List HandlerCall) :
    Option (Option EventHandler) :=
  made.foldlM HandlerCall.track h

/-- The interest lists hold the registered handlers and nothing else. -/
structure Tracks (r : Reactors) (registered : ℕ → Option EventHandler) : Prop where
  errors : ∀ l, (r.selectors l).errors = []
  handlers : ∀ id h, registered id = some h → r.handlers id = h
  interest : ∀ l fd id events, (r.selectors l).interest fd = some (id, events) ↔
    registered id = some ⟨fd, l, events⟩

namespace Tracks

variable {r : Reactors} {registered : ℕ → Option EventHandler} {id : ℕ} {h : EventHandler}

theorem new : Tracks .new fun _ => none :=
  ⟨fun _ => rfl, nofun, by simp [Reactors.new, Selector.new]⟩

/-- The entry of a registered handler. -/
theorem interest_eq (hr : Tracks r registered) (hid : registered id = some h) :
    (r.selectors h.dispatcher).interest h.fd = some (id, h.events) :=
  (hr.interest h.dispatcher h.fd id h.events).mpr hid

/-- Two registered handlers of a dispatcher have two descriptors. -/
theorem fd_injective (hr : Tracks r registered) {other : ℕ} {g : EventHandler}
    (hid : registered id = some h) (hother : registered other = some g)
    (hdispatcher : h.dispatcher = g.dispatcher) (hfd : h.fd = g.fd) : id = other := by
  have hentry := hr.interest_eq hid
  rw [hdispatcher, hfd, hr.interest_eq hother] at hentry
  exact (congrArg Prod.fst (Option.some.inj hentry)).symm

theorem interest_update (sel : ℕ → Selector) (l fd k f : ℕ) (entry : Option (ℕ × EpollEvents)) :
    (Function.update sel l ((sel l).setInterest fd entry) k).interest f =
      if k = l ∧ f = fd then entry else (sel k).interest f := by
  by_cases hk : k = l
  · subst hk
    by_cases hf : f = fd
    · simp [Selector.setInterest, hf]
    · simp [Selector.setInterest, hf]
  · simp [hk]

/-- One entry is written, for a handler that has no entry elsewhere. -/
theorem setEntry (hr : Tracks r registered) {fd l : ℕ} {next : Option EventHandler}
    (hself : ∀ g, registered id = some g → g.fd = fd ∧ g.dispatcher = l)
    (hfree : ∀ other g, registered other = some g → g.fd = fd → g.dispatcher = l → other = id)
    (hnext : ∀ g, next = some g → g = h ∧ g.fd = fd ∧ g.dispatcher = l) :
    Tracks
      ⟨Function.update r.handlers id h, Function.update r.selectors l
        ((r.selectors l).setInterest fd (next.map fun g => (id, g.events)))⟩
      (Function.update registered id next) where
  errors k := by
    by_cases hk : k = l
    · subst hk
      simpa [Selector.setInterest] using hr.errors k
    · simpa [hk] using hr.errors k
  handlers other g hg := by
    by_cases hother : other = id
    · subst hother
      simp only [Function.update_self] at hg ⊢
      exact (hnext g hg).1.symm
    · simp only [Function.update_of_ne hother] at hg ⊢
      exact hr.handlers other g hg
  interest k f other events := by
    rw [interest_update]
    by_cases hplace : k = l ∧ f = fd
    · obtain ⟨rfl, rfl⟩ := hplace
      rw [if_pos ⟨rfl, rfl⟩]
      by_cases hother : other = id
      · subst hother
        rw [Function.update_self]
        constructor
        · intro hentry
          obtain ⟨g, hg, heq⟩ := Option.map_eq_some_iff.mp hentry
          obtain ⟨-, rfl, rfl⟩ := hnext g hg
          cases heq
          exact hg
        · intro hg
          rw [hg]
          rfl
      · rw [Function.update_of_ne hother]
        constructor
        · intro hentry
          obtain ⟨g, -, heq⟩ := Option.map_eq_some_iff.mp hentry
          exact absurd (congrArg Prod.fst heq).symm hother
        · exact fun hg => absurd (hfree other _ hg rfl rfl) hother
    · rw [if_neg hplace, hr.interest]
      by_cases hother : other = id
      · subst hother
        rw [Function.update_self]
        constructor
        · intro hg
          obtain ⟨hf, hk⟩ := hself _ hg
          exact absurd ⟨hk, hf⟩ hplace
        · intro hg
          obtain ⟨-, hf, hk⟩ := hnext _ hg
          exact absurd ⟨hk, hf⟩ hplace
      · rw [Function.update_of_ne hother]

theorem free (hr : Tracks r registered) (hid : registered id = some h) :
    ∀ other g, registered other = some g → g.fd = h.fd → g.dispatcher = h.dispatcher →
      other = id :=
  fun _ _ hg hfd hl => hr.fd_injective hg hid hl hfd

theorem self (hid : registered id = some h) :
    ∀ g, registered id = some g → g.fd = h.fd ∧ g.dispatcher = h.dispatcher := by
  intro g hg
  obtain rfl := Option.some.inj (hid.symm.trans hg)
  exact ⟨rfl, rfl⟩

/-- The events of a registered handler change. -/
theorem modify (hr : Tracks r registered) (hid : registered id = some h) {g : EventHandler}
    (hfd : g.fd = h.fd) (hl : g.dispatcher = h.dispatcher) :
    Tracks
      ⟨Function.update r.handlers id g, Function.update r.selectors g.dispatcher
        ((r.selectors g.dispatcher).modifyEvent id g)⟩
      (Function.update registered id (some g)) := by
  have hnext : ∀ other, some g = some other →
      other = g ∧ other.fd = h.fd ∧ other.dispatcher = h.dispatcher := by
    rintro _ ⟨⟩
    exact ⟨rfl, hfd, hl⟩
  have hset := hr.setEntry (self hid) (hr.free hid) hnext
  simpa [Selector.modifyEvent, hfd, hl, hr.interest_eq hid] using hset

/-- A call that a handler may make succeeds, and takes it where it should.  The descriptor of a
new handler is not that of another handler of the dispatcher. -/
theorem call (hr : Tracks r registered) {made : HandlerCall} {next : Option EventHandler}
    (htrack : made.track (registered id) = some next)
    (hfresh : ∀ fd l, made = .construct fd l → ∀ other h, registered other = some h →
      h.dispatcher = l → h.fd ≠ fd) :
    Tracks (r.call id made) (Function.update registered id next) := by
  cases hid : registered id with
  | none =>
      rw [hid] at htrack
      cases made with
      | construct fd l =>
          cases htrack
          have hempty : (r.selectors l).interest fd = none := by
            cases hentry : (r.selectors l).interest fd with
            | none => rfl
            | some entry =>
                exact absurd rfl
                  (hfresh fd l rfl entry.1 _ ((hr.interest l fd entry.1 entry.2).mp hentry) rfl)
          have hnext : ∀ g, some (EventHandler.new fd l) = some g →
              g = .new fd l ∧ g.fd = fd ∧ g.dispatcher = l := by
            rintro g ⟨⟩
            exact ⟨rfl, rfl, rfl⟩
          have hself : ∀ g, registered id = some g → g.fd = fd ∧ g.dispatcher = l := by
            simp [hid]
          have hset := hr.setEntry hself
            (fun other g hg hfd hl => absurd hfd (hfresh fd l rfl other g hg hl)) hnext
          simpa [Reactors.call, HandlerCall.apply, EventHandler.new,
            Selector.updataOneEventHandler, Selector.addEvent, hempty] using hset
      | _ => cases htrack
  | some h =>
      rw [hid] at htrack
      have hhandler : r.handlers id = h := hr.handlers id h hid
      cases made with
      | construct fd l => cases htrack
      | remove =>
          cases htrack
          have hnext : ∀ other, none = some other →
              other = h ∧ other.fd = h.fd ∧ other.dispatcher = h.dispatcher := by simp
          have hset := hr.setEntry (self hid) (hr.free hid) hnext
          simpa [Reactors.call, HandlerCall.apply, hhandler, Selector.updataOneEventHandler,
            Selector.deleteEvent, hr.interest_eq hid] using hset
      | setCareRead | setCareWrite | setStopCareRead | setStopCareWrite | setStopCareAll =>
          cases htrack
          simp only [Reactors.call, hhandler]
          exact hr.modify hid rfl rfl

/-- The calls of one handler, of which only the first may make it. -/
theorem calls (hr : Tracks r registered) {made : List HandlerCall} {next : Option EventHandler}
    (htrack : HandlerCall.trackAll (registered id) made = some next)
    (hfresh : ∀ fd l, .construct fd l ∈ made → ∀ other h, registered other = some h → other ≠ id →
      h.dispatcher = l → h.fd ≠ fd) :
    Tracks (r.calls id made) (Function.update registered id next) := by
  induction made generalizing r registered with
  | nil =>
      cases htrack
      rwa [Function.update_eq_self]
  | cons call made ih =>
      obtain ⟨mid, hmid, hrest⟩ := Option.bind_eq_some_iff.mp htrack
      have hcall := hr.call hmid (by
        rintro fd l rfl other h hother hl
        refine hfresh fd l List.mem_cons_self other h hother ?_ hl
        rintro rfl
        rw [hother] at hmid
        cases hmid)
      have hmade := ih hcall (by rwa [Function.update_self]) (by
        intro fd l hmem other h hother hne
        rw [Function.update_of_ne hne] at hother
        exact hfresh fd l (List.mem_cons_of_mem _ hmem) other h hother hne)
      rwa [Function.update_idem] at hmade

/-- Closing the descriptor of no registered handler changes nothing. -/
theorem close (hr : Tracks r registered) {fd : ℕ}
    (hfd : ∀ id h, registered id = some h → h.fd ≠ fd) : Tracks (r.close fd) registered where
  errors := hr.errors
  handlers := hr.handlers
  interest l f id events := by
    by_cases hf : f = fd
    · subst hf
      simp only [Reactors.close, Selector.close, Selector.setInterest, Function.update_self]
      exact iff_of_false nofun fun hid => hfd id _ hid rfl
    · simp only [Reactors.close, Selector.close, Selector.setInterest, Function.update_of_ne hf]
      exact hr.interest l f id events

theorem select (hr : Tracks r registered) (l ret : ℕ) : Tracks (r.select l ret) registered := by
  have hsame : ∀ k, ((r.select l ret).selectors k).errors = (r.selectors k).errors ∧
      ((r.select l ret).selectors k).interest = (r.selectors k).interest := by
    intro k
    by_cases hk : k = l
    · subst hk
      simp only [Reactors.select, Function.update_self, Selector.select]
      split <;> exact ⟨rfl, rfl⟩
    · simp [Reactors.select, hk]
  exact ⟨fun k => (hsame k).1.trans (hr.errors k), hr.handlers,
    fun k fd id events => by rw [(hsame k).2]; exact hr.interest k fd id events⟩

end Tracks

namespace Reactors

variable (r : Reactors)

theorem eEventsSize_call (id : ℕ) (made : HandlerCall) (l : ℕ) :
    ((r.call id made).selectors l).eEventsSize = (r.selectors l).eEventsSize := by
  have hone : ∀ (s : Selector) h,
      (s.updataOneEventHandler id h made).eEventsSize = s.eEventsSize := by
    intro s h
    cases made with
    | construct fd dispatcher =>
        simp only [Selector.updataOneEventHandler, Selector.addEvent]
        split <;> rfl
    | remove =>
        simp only [Selector.updataOneEventHandler, Selector.deleteEvent]
        split <;> rfl
    | setCareRead | setCareWrite | setStopCareRead | setStopCareWrite | setStopCareAll =>
        simp only [Selector.updataOneEventHandler, Selector.modifyEvent]
        split <;> rfl
  unfold call
  by_cases hl : l = (made.apply (r.handlers id)).dispatcher
  · subst hl
    dsimp only
    rw [Function.update_self, hone]
  · dsimp only
    rw [Function.update_of_ne hl]

theorem eEventsSize_calls (id : ℕ) (made : List HandlerCall) (l : ℕ) :
    ((r.calls id made).selectors l).eEventsSize = (r.selectors l).eEventsSize := by
  induction made generalizing r with
  | nil => rfl
  | cons call made ih => exact (ih (r.call id call)).trans (r.eEventsSize_call id call l)

end Reactors

/-- A handler that is not registered is made by its first call. -/
theorem HandlerCall.construct_of_trackAll {made : List HandlerCall} {h : EventHandler}
    (htrack : trackAll none made = some (some h)) : ∃ fd l, .construct fd l ∈ made := by
  cases made with
  | nil => cases htrack
  | cons call made =>
      cases call with
      | construct fd l => exact ⟨fd, l, List.mem_cons_self⟩
      | _ => cases htrack

end YxAlpha
