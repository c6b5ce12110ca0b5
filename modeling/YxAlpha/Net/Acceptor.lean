import YxAlpha.Library.Machine
import Mathlib.Data.List.Perm.Basic
import Mathlib.Data.List.Nodup
import Mathlib.Data.List.Range

/-!
# The acceptor

On a read event of the listening socket, `EventHandlerCallBack` of `net/acceptor.cc` accepts
until `accept` fails.  When no descriptor is left it gives up its reserve `idle_fd_`, takes the
waiting connection on it, closes that, and opens the reserve again.

A number may be given out again once its descriptor is closed, so descriptors have a serial
number, too.  The accounts are a ledger: every descriptor of the acceptor has been passed on or
closed, is the reserve, or is lost.  One is lost with every `accept` that returns 0, the number
at which the loop ends though `accept` has not failed (`no_leak_iff`).
-/

namespace YxAlpha

structure Descriptor where
  number : ℕ
  serial : ℕ
  deriving DecidableEq, Repr

/-- The errors that `Socket::Accept` tells apart. -/
inductive AcceptErrno
  | eagain
  | eintr
  | eperm
  | emfile
  /-- Fatal or unknown. -/
  | other
  deriving DecidableEq, Repr

/-- What `accept4` returns. -/
inductive AcceptResult
  | accepted (number : ℕ)
  | failed (errno : AcceptErrno)
  deriving DecidableEq, Repr

/-- A read event of the listening socket, with all that the kernel answers. -/
structure ReadEvent where
  /-- The results of the calls of `Socket::Accept`. -/
  results : List AcceptResult
  /-- The result of the `accept` on the slot of the reserve, if there is one. -/
  waiting : Option ℕ
  /-- What `open` returns; it has a slot, the one that has just been freed. -/
  reopened : ℕ

structure Acceptor where
  /-- `idle_fd_`, unless it is negative. -/
  idle : Option Descriptor
  /-- All that `accept` has returned. -/
  accepted : List Descriptor
  /-- All that `open` has returned. -/
  opened : List Descriptor
  /-- All that `newConnectionCallback_` has been called with. -/
  passed : List Descriptor
  closed : List Descriptor

namespace Acceptor

/-- The reserve of a new acceptor is open. -/
def new (reserve : ℕ) : Acceptor :=
  { idle := some ⟨reserve, 0⟩
    accepted := []
    opened := [⟨reserve, 0⟩]
    passed := []
    closed := [] }

/-- The descriptor that the kernel hands out next. -/
def fresh (s : Acceptor) (number : ℕ) : Descriptor :=
  ⟨number, s.accepted.length + s.opened.length⟩

def receive (s : Acceptor) (d : Descriptor) : Acceptor := { s with accepted := s.accepted ++ [d] }

/-- The body of the loop. -/
def newConnection (hasCallback : Bool) (s : Acceptor) (connfd : Descriptor) : Acceptor :=
  if hasCallback then { s with passed := s.passed ++ [connfd] }
  else { s with closed := s.closed ++ [connfd] }

/-- The loop, with the error that has ended it; `none` if `Socket::Accept` aborts. -/
def acceptLoop (hasCallback : Bool) (s : Acceptor) :
    List AcceptResult → Option (Acceptor × Option AcceptErrno)
  | [] => none
  | .accepted number :: results =>
      let connfd := s.fresh number
      if 0 < number then
        acceptLoop hasCallback ((s.receive connfd).newConnection hasCallback connfd) results
      else if results = [] then some (s.receive connfd, none)
      else none
  | .failed errno :: results =>
      if errno = .other ∨ results ≠ [] then none else some (s, some errno)

/-- `close(idle_fd_)`. -/
def closeIdle (s : Acceptor) : Acceptor := { s with closed := s.closed ++ s.idle.toList }

/-- `idle_fd_ = accept(...)`. -/
def acceptIdle (s : Acceptor) (waiting : Option ℕ) : Acceptor :=
  { s with
    idle := waiting.map s.fresh
    accepted := s.accepted ++ (waiting.map s.fresh).toList }

/-- `idle_fd_ = open(...)`. -/
def openIdle (s : Acceptor) (number : ℕ) : Acceptor :=
  { s with
    idle := some (s.fresh number)
    opened := s.opened ++ [s.fresh number] }

/-- `EventHandlerCallBack`; no log between the `accept` and the test has changed `errno`. -/
def eventHandlerCallBack (hasCallback : Bool) (s : Acceptor) (event : ReadEvent) :
    Option Acceptor :=
  (s.acceptLoop hasCallback event.results).map fun (s, errno) =>
    if errno = some .emfile then
      ((s.closeIdle.acceptIdle event.waiting).closeIdle).openIdle event.reopened
    else s

def machine (hasCallback : Bool) (reserve : ℕ) : Machine Acceptor ReadEvent where
  init := new reserve
  step := eventHandlerCallBack hasCallback

/-- What has been accepted is passed on once, or closed, and the reserve is open. -/
def Clean (s : Acceptor) : Prop :=
  (∀ d ∈ s.accepted, (s.passed ++ s.closed).count d = 1) ∧
    ∃ d ∈ s.opened, s.idle = some d ∧ d ∉ s.passed ++ s.closed

instance : DecidablePred Clean := fun _ => inferInstanceAs (Decidable (_ ∧ _))

/-! ## The ledger -/

/-- `held` are the descriptors that are neither passed on nor closed. -/
structure Books (s : Acceptor) (held : List Descriptor) : Prop where
  balance : (s.accepted ++ s.opened).Perm (s.passed ++ s.closed ++ held)
  serials : ((s.accepted ++ s.opened).map Descriptor.serial).Perm
    (List.range (s.accepted.length + s.opened.length))

/-- The reserve is held, and what is `lost`, which nobody knows any more. -/
structure Ledger (s : Acceptor) (lost : List Descriptor) : Prop where
  books : s.Books (s.idle.toList ++ lost)
  reserve : ∃ d ∈ s.opened, s.idle = some d
  lost_accepted : ∀ d ∈ lost, d ∈ s.accepted

variable {s t : Acceptor} {held lost : List Descriptor} {hasCallback : Bool}

theorem Books.nodup (h : s.Books held) : (s.accepted ++ s.opened).Nodup :=
  List.Nodup.of_map _ (h.serials.nodup_iff.mpr List.nodup_range)

/-- What has been accepted is in one place. -/
theorem Ledger.count_accepted (h : s.Ledger lost) {d : Descriptor} (hd : d ∈ s.accepted) :
    (s.passed ++ s.closed).count d + lost.count d = 1 := by
  obtain ⟨reserve, hopened, hidle⟩ := h.reserve
  -- the reserve has been opened, and never accepted
  have hnotOpened : d ∉ s.opened := List.disjoint_of_nodup_append h.books.nodup hd
  have hne : reserve ≠ d := fun heq => hnotOpened (heq ▸ hopened)
  have hone : (s.accepted ++ s.opened).count d = 1 :=
    List.count_eq_one_of_mem h.books.nodup (List.mem_append_left _ hd)
  calc (s.passed ++ s.closed).count d + lost.count d
      = (s.passed ++ s.closed).count d + (s.idle.toList ++ lost).count d := by
        rw [hidle, Option.toList_some, List.singleton_append, List.count_cons_of_ne hne]
    _ = (s.passed ++ s.closed ++ (s.idle.toList ++ lost)).count d := List.count_append.symm
    _ = (s.accepted ++ s.opened).count d := (h.books.balance.count_eq d).symm
    _ = 1 := hone

/-- The acceptor is clean when nothing is lost. -/
theorem Ledger.clean_iff (h : s.Ledger lost) : s.Clean ↔ lost = [] := by
  constructor
  · rintro ⟨hall, -⟩
    by_contra hlost
    obtain ⟨d, hd⟩ := List.exists_mem_of_ne_nil _ hlost
    have haccepted := h.lost_accepted d hd
    have hone := h.count_accepted haccepted
    have hpos := List.count_pos_iff.mpr hd
    rw [hall d haccepted] at hone
    omega
  · rintro rfl
    refine ⟨fun d hd => h.count_accepted hd, ?_⟩
    obtain ⟨reserve, hopened, hidle⟩ := h.reserve
    refine ⟨reserve, hopened, hidle, ?_⟩
    have hone : (s.accepted ++ s.opened).count reserve = 1 :=
      List.count_eq_one_of_mem h.books.nodup (List.mem_append_right _ hopened)
    rw [h.books.balance.count_eq, hidle, List.append_nil, List.count_append, Option.toList_some,
      List.count_singleton_self] at hone
    exact List.count_eq_zero.mp (by omega)

/-! ## What the calls do to the books -/

theorem books_new (reserve : ℕ) : (new reserve).Books [⟨reserve, 0⟩] :=
  ⟨List.Perm.refl _, List.Perm.refl _⟩

theorem Books.serials_fresh (h : s.Books held) (number : ℕ) :
    ((s.accepted ++ s.opened ++ [s.fresh number]).map Descriptor.serial).Perm
      (List.range (s.accepted.length + s.opened.length + 1)) := by
  rw [List.map_append, List.range_succ]
  exact h.serials.append_right _

theorem Books.receive (h : s.Books held) (number : ℕ) :
    (s.receive (s.fresh number)).Books (s.fresh number :: held) where
  balance := by
    rw [List.perm_iff_count]
    intro d
    have hd := h.balance.count_eq d
    simp only [Acceptor.receive, List.count_append, List.count_cons, List.count_nil] at hd ⊢
    omega
  serials := by
    have hlength : (s.accepted ++ [s.fresh number]).length + s.opened.length =
        s.accepted.length + s.opened.length + 1 := by
      rw [List.length_append, List.length_singleton]
      omega
    have hbehind : (s.accepted ++ [s.fresh number] ++ s.opened).Perm
        (s.accepted ++ s.opened ++ [s.fresh number]) := by
      rw [List.append_assoc, List.append_assoc]
      exact List.Perm.append_left _ List.perm_append_comm
    show List.Perm _ (List.range ((s.accepted ++ [s.fresh number]).length + s.opened.length))
    rw [hlength]
    exact (hbehind.map _).trans (h.serials_fresh number)

/-- A descriptor that is held is passed on or closed. -/
theorem Books.settle {d : Descriptor} (h : s.Books (d :: held))
    (haccepted : t.accepted = s.accepted) (hopened : t.opened = s.opened)
    (hsettled : (t.passed ++ t.closed).Perm (d :: (s.passed ++ s.closed))) : t.Books held where
  balance := by
    rw [haccepted, hopened]
    calc (s.accepted ++ s.opened).Perm (s.passed ++ s.closed ++ d :: held) := h.balance
      List.Perm _ (d :: (s.passed ++ s.closed) ++ held) := List.perm_middle
      List.Perm _ (t.passed ++ t.closed ++ held) := hsettled.symm.append_right held
  serials := by
    rw [haccepted, hopened]
    exact h.serials

theorem Books.newConnection {d : Descriptor} (h : s.Books (d :: held)) :
    (s.newConnection hasCallback d).Books held := by
  unfold Acceptor.newConnection
  split
  · refine h.settle rfl rfl ?_
    rw [List.append_assoc]
    exact List.perm_middle
  · refine h.settle rfl rfl ?_
    rw [← List.append_assoc]
    exact List.perm_append_singleton d _

theorem Books.closeIdle (h : s.Books (s.idle.toList ++ held)) : s.closeIdle.Books held where
  balance := by
    show List.Perm _ (s.passed ++ (s.closed ++ s.idle.toList) ++ held)
    rw [← List.append_assoc s.passed, List.append_assoc]
    exact h.balance
  serials := h.serials

theorem Books.acceptIdle (h : s.Books held) (waiting : Option ℕ) :
    (s.acceptIdle waiting).Books ((s.acceptIdle waiting).idle.toList ++ held) := by
  cases waiting with
  | none =>
      have hnone : s.acceptIdle none = { s with idle := none } := by
        show ({ s with idle := none, accepted := s.accepted ++ [] } : Acceptor) = _
        rw [List.append_nil]
      rw [hnone]
      exact ⟨h.balance, h.serials⟩
  | some number => exact ⟨(h.receive number).balance, (h.receive number).serials⟩

theorem Books.openIdle (h : s.Books held) (number : ℕ) :
    (s.openIdle number).Books ((s.openIdle number).idle.toList ++ held) where
  balance := by
    rw [List.perm_iff_count]
    intro d
    have hd := h.balance.count_eq d
    simp only [Acceptor.openIdle, Option.toList_some, List.count_append, List.count_cons,
      List.count_nil] at hd ⊢
    omega
  serials := by
    show ((s.accepted ++ (s.opened ++ [s.fresh number])).map Descriptor.serial).Perm
      (List.range (s.accepted.length + (s.opened ++ [s.fresh number]).length))
    rw [← List.append_assoc, List.length_append, List.length_singleton, ← Nat.add_assoc]
    exact h.serials_fresh number

theorem Books.perm {others : List Descriptor} (h : s.Books held) (hperm : held.Perm others) :
    s.Books others :=
  ⟨h.balance.trans (hperm.append_left _), h.serials⟩

/-- A new connection touches neither the reserve nor what has been accepted. -/
theorem newConnection_keeps (hasCallback : Bool) (s : Acceptor) (d : Descriptor) :
    (s.newConnection hasCallback d).idle = s.idle ∧
      (s.newConnection hasCallback d).opened = s.opened ∧
      (s.newConnection hasCallback d).accepted = s.accepted := by
  unfold newConnection
  split
  · exact ⟨rfl, rfl, rfl⟩
  · exact ⟨rfl, rfl, rfl⟩

/-! ## One read event -/

/-- A pass of the loop. -/
theorem Ledger.newConnection (h : s.Ledger lost) (number : ℕ) :
    ((s.receive (s.fresh number)).newConnection hasCallback (s.fresh number)).Ledger lost := by
  obtain ⟨hidle, hopened, haccepted⟩ :=
    newConnection_keeps hasCallback (s.receive (s.fresh number)) (s.fresh number)
  refine ⟨?_, ?_, ?_⟩
  · rw [hidle]
    exact (h.books.receive number).newConnection
  · rw [hidle, hopened]
    exact h.reserve
  · rw [haccepted]
    exact fun d hd => List.mem_append_left _ (h.lost_accepted d hd)

/-- The end of the loop with a descriptor that nobody has got. -/
theorem Ledger.lose (h : s.Ledger lost) (number : ℕ) :
    (s.receive (s.fresh number)).Ledger (s.fresh number :: lost) where
  books := (h.books.receive number).perm List.perm_middle.symm
  reserve := h.reserve
  lost_accepted := by
    rw [List.forall_mem_cons]
    exact ⟨List.mem_append_right _ (List.mem_singleton_self _),
      fun d hd => List.mem_append_left _ (h.lost_accepted d hd)⟩

/-- The loop loses a descriptor when it ends with the number 0. -/
theorem ledger_acceptLoop {results : List AcceptResult} {errno : Option AcceptErrno}
    (h : s.Ledger lost) (hloop : s.acceptLoop hasCallback results = some (t, errno)) :
    ∃ more, t.Ledger (more ++ lost) ∧ (more = [] ↔ AcceptResult.accepted 0 ∉ results) := by
  induction results generalizing s with
  | nil => cases hloop
  | cons result results ih =>
      cases result with
      | accepted number =>
          rw [acceptLoop] at hloop
          split at hloop
          · -- the loop goes on, and what is lost behind this pass is what the rest loses
            rename_i hpos
            obtain ⟨more, hmore, hiff⟩ := ih (h.newConnection number) hloop
            refine ⟨more, hmore, ?_⟩
            have hne : AcceptResult.accepted 0 ≠ .accepted number := by
              intro heq
              cases heq
              exact Nat.lt_irrefl 0 hpos
            rw [hiff, List.mem_cons, or_iff_right hne]
          · -- the loop ends, though there is a descriptor
            rename_i hpos
            obtain rfl : number = 0 := by omega
            split at hloop
            · cases hloop
              exact ⟨[s.fresh 0], h.lose 0, iff_of_false (by simp) (by simp)⟩
            · cases hloop
      | failed errno =>
          rw [acceptLoop] at hloop
          split at hloop
          · cases hloop
          · rename_i hends
            obtain ⟨-, hnil⟩ := not_or.mp hends
            rw [not_not] at hnil
            subst hnil
            cases hloop
            exact ⟨[], h, iff_of_true rfl (by simp)⟩

/-- The reserve is closed twice and opened again. -/
theorem Ledger.replaceIdle (h : s.Ledger lost) (waiting : Option ℕ) (reopened : ℕ) :
    (((s.closeIdle.acceptIdle waiting).closeIdle).openIdle reopened).Ledger lost where
  books := ((h.books.closeIdle.acceptIdle waiting).closeIdle).openIdle reopened
  reserve := ⟨_, List.mem_append_right _ (List.mem_singleton_self _), rfl⟩
  lost_accepted d hd := List.mem_append_left _ (h.lost_accepted d hd)

theorem ledger_event {event : ReadEvent} (h : s.Ledger lost)
    (hevent : s.eventHandlerCallBack hasCallback event = some t) :
    ∃ more, t.Ledger (more ++ lost) ∧ (more = [] ↔ AcceptResult.accepted 0 ∉ event.results) := by
  obtain ⟨⟨u, errno⟩, hloop, hu⟩ := Option.map_eq_some_iff.mp hevent
  obtain ⟨more, hmore, hiff⟩ := ledger_acceptLoop h hloop
  refine ⟨more, ?_, hiff⟩
  dsimp only at hu
  split at hu
  · subst hu
    exact hmore.replaceIdle event.waiting event.reopened
  · subst hu
    exact hmore

/-- **Nothing leaks as long as no descriptor is 0.**  In a run, every descriptor that `accept`
returns is passed on once, or closed, and the reserve is open after every read event, exactly if
no `accept` of the loop returns 0. -/
theorem no_leak_iff (hasCallback : Bool) (reserve : ℕ) (events : List ReadEvent) :
    (machine hasCallback reserve).Throughout Clean (machine hasCallback reserve).init events ↔
      (machine hasCallback reserve).EachStep (fun _ event => .accepted 0 ∉ event.results)
        (machine hasCallback reserve).init events := by
  have hnew : (new reserve).Ledger [] :=
    ⟨books_new reserve, ⟨_, List.mem_singleton_self _, rfl⟩, by simp⟩
  apply Machine.throughout_iff_eachStep (I := fun s => ∃ lost, s.Ledger lost)
  · rintro s event t ⟨lost, h⟩ ht
    obtain ⟨more, hmore, -⟩ := ledger_event h ht
    exact ⟨_, hmore⟩
  · rintro s event t ⟨lost, h⟩ hclean ht
    obtain rfl := h.clean_iff.mp hclean
    obtain ⟨more, hmore, hiff⟩ := ledger_event h ht
    rw [hmore.clean_iff, List.append_nil, hiff]
  · exact ⟨[], hnew⟩
  · exact hnew.clean_iff.mpr rfl

/-- The standard input has been closed, and its number comes back. -/
theorem zero_leaks :
    ¬ (machine true 3).Throughout Clean (machine true 3).init [⟨[.accepted 0], none, 0⟩] := by
  decide

end Acceptor

end YxAlpha
