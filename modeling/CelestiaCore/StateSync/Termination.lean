import CelestiaCore.StateSync.Progress
import CelestiaCore.StateSync.Session
import Mathlib.Algebra.Order.BigOperators.Group.Finset

set_option autoImplicit false

/- The reactor drains. Once no new call comes in, the goroutines already inside `Sync`,
`Receive`, `AddPeer` and `RemovePeer` finish under every schedule: each statement, and
`SyncAny` returning, moves one goroutine forward along code without loops, so the statements
left to run, summed over the goroutines that exist, drop at every step. A schedule can only
stop where no goroutine can move, and there every call has returned. So each forwarded call is
delivered exactly once: `Reactor.deliveries` records which goroutine's step delivered each
call, no goroutine appears in it twice, and a call that holds the read lock while a session
runs appears in it wherever a schedule stops. -/

namespace CelestiaCore.StateSync

/-- The statements a `Sync` call has left on its longest path, `SyncAny` returning counted as
one. -/
def SyncPc.remaining : SyncPc → Nat
  | .lock => 14
  | .lockWait => 13
  | .check => 12
  | .unlockBusy => 1
  | .setSyncing => 11
  | .install => 10
  | .unlockInstalled _ => 9
  | .hook _ => 8
  | .callSyncAny _ => 7
  | .syncAny _ _ => 6
  | .relock _ _ => 5
  | .relockWait _ _ => 4
  | .clear _ _ => 3
  | .resetSyncing _ _ => 2
  | .unlockCleared _ _ => 1
  | .returned _ => 0

/-- The statements a forwarding call has left on its longest path. -/
def ForwardPc.remaining : ForwardPc → Nat
  | .rlock => 4
  | .check => 3
  | .call => 2
  | .runlock => 1
  | .returned => 0

def Thread.remaining : Thread → Nat
  | .sync pc => pc.remaining
  | .forward _ pc => pc.remaining
  | .idle | .served _ | .panicked => 0

/-- The goroutine an action belongs to. -/
def Action.thread : Action → ThreadId
  | .call t _ | .run t | .syncAnyReturns t _ => t

namespace Reactor

variable {r r' : Reactor} {t : ThreadId}

theorem runSync_advances {pc : SyncPc} (step : r.runSync t pc = some r') :
    ∃ th, r'.threads = Function.update r.threads t th ∧ th.remaining < pc.remaining := by
  cases pc <;> simp only [runSync] at step
  case lock | lockWait | relock | relockWait =>
    obtain ⟨_, -, rfl⟩ := Option.map_eq_some'.mp step
    exact ⟨_, rfl, by simp [Thread.remaining, SyncPc.remaining]⟩
  case check | callSyncAny =>
    split at step <;> cases step <;> exact ⟨_, rfl, by simp [Thread.remaining, SyncPc.remaining]⟩
  case syncAny | returned => cases step
  all_goals (cases step; exact ⟨_, rfl, by simp [Thread.remaining, SyncPc.remaining]⟩)

theorem runForward_advances {event : Event} {pc : ForwardPc}
    (step : r.runForward t event pc = some r') :
    ∃ th, r'.threads = Function.update r.threads t th ∧ th.remaining < pc.remaining := by
  cases pc <;> simp only [runForward] at step
  case rlock =>
    obtain ⟨_, -, rfl⟩ := Option.map_eq_some'.mp step
    exact ⟨_, rfl, by simp [Thread.remaining, ForwardPc.remaining]⟩
  case check | call =>
    split at step <;> cases step <;>
      exact ⟨_, rfl, by simp [Thread.remaining, ForwardPc.remaining]⟩
  case runlock => cases step; exact ⟨_, rfl, by simp [Thread.remaining, ForwardPc.remaining]⟩
  case returned => cases step

/-- Every advance moves one goroutine forward along its code and leaves the others. -/
theorem advance_shape (advance : r.Advance r') :
    ∃ t th, r'.threads = Function.update r.threads t th ∧
      th.remaining < (r.threads t).remaining := by
  obtain ⟨a, notCall, step⟩ := advance
  cases a with
  | call u c => exact absurd rfl (notCall u c)
  | run t =>
    simp only [Reactor.step] at step
    split at step
    · obtain ⟨th, threads, lt⟩ := runSync_advances step
      exact ⟨t, th, threads, by simpa [Thread.remaining, *] using lt⟩
    · obtain ⟨th, threads, lt⟩ := runForward_advances step
      exact ⟨t, th, threads, by simpa [Thread.remaining, *] using lt⟩
    · cases step
  | syncAnyReturns t result =>
    simp only [Reactor.step] at step
    split at step <;> cases step
    exact ⟨t, _, rfl, by simp [Thread.remaining, SyncPc.remaining, *]⟩

/-- Every goroutine from `N` on is idle. -/
def IdleFrom (r : Reactor) (N : Nat) : Prop := ∀ t, N ≤ t → r.threads t = .idle

/-- The statements left to the goroutines below `N`. -/
def work (r : Reactor) (N : Nat) : Nat := ∑ t ∈ Finset.range N, (r.threads t).remaining

theorem step_threads {a : Action} (step : r.step a = some r') :
    ∃ th, r'.threads = Function.update r.threads a.thread th := by
  cases a with
  | run t =>
    simp only [Reactor.step] at step
    split at step
    · exact (runSync_advances step).imp fun _ => And.left
    · exact (runForward_advances step).imp fun _ => And.left
    · cases step
  | _ =>
    simp only [Reactor.step] at step
    split at step <;> cases step
    exact ⟨_, rfl⟩

/-- Only finitely many goroutines ever call in. -/
theorem Reachable.idleFrom (reach : r.Reachable) : ∃ N, r.IdleFrom N := by
  induction reach with
  | init => exact ⟨0, fun _ _ => rfl⟩
  | step a _ step ih =>
    obtain ⟨N, idle⟩ := ih
    obtain ⟨th, threads⟩ := step_threads step
    refine ⟨max N (a.thread + 1), fun u le => ?_⟩
    have far := max_le_iff.mp le
    rw [threads, Function.update_noteq (show u ≠ a.thread by omega), idle u far.1]

theorem Advance.work_lt {N : Nat} (idle : r.IdleFrom N) (advance : r.Advance r') :
    r'.IdleFrom N ∧ r'.work N < r.work N := by
  obtain ⟨t, th, threads, lt⟩ := advance_shape advance
  have below : t < N := by
    by_contra far
    simp [idle t (Nat.le_of_not_lt far), Thread.remaining] at lt
  refine ⟨fun u le => by rw [threads, Function.update_noteq (below.trans_le le).ne',
    idle u le], ?_⟩
  unfold work
  rw [threads]
  apply Finset.sum_lt_sum
  · intro u _
    by_cases same : u = t
    · subst same; simp [lt.le]
    · simp [same]
  · exact ⟨t, Finset.mem_range.mpr below, by simpa using lt⟩

theorem acc_advance {N : Nat} (idle : r.IdleFrom N) : Acc (fun r' r => r.Advance r') r := by
  obtain ⟨w, h⟩ : ∃ w, r.work N = w := ⟨_, rfl⟩
  induction w using Nat.strong_induction_on generalizing r with
  | _ w ih =>
    subst h
    exact ⟨_, fun _ advance => ih _ (advance.work_lt idle).2 (advance.work_lt idle).1 rfl⟩

theorem Reachable.advances (reach : r.Reachable)
    (run : Relation.ReflTransGen Advance r r') : r'.Reachable :=
  reach.steps (run.lift id fun _ _ advance => advance.imp fun _ => And.right)

end Reactor

/-- The reactor drains. From every reachable state, once no new call comes in, every schedule
of the goroutines already inside (statements run in any interleaving, `SyncAny` returning at
any time) is finite, and wherever a schedule stops, every call has returned. -/
theorem reactor_drains :
    ∀ r : Reactor, r.Reachable →
      Acc (fun r' r => r.Advance r') r ∧
      ∀ r', Relation.ReflTransGen Reactor.Advance r r' → (∀ r'', ¬ r'.Advance r'') →
        ∀ t, (r'.threads t).active = false := by
  intro r reach
  obtain ⟨N, idle⟩ := reach.idleFrom
  refine ⟨Reactor.acc_advance idle, fun r' run stuck t => ?_⟩
  by_contra active
  obtain ⟨r'', advance⟩ :=
    Reactor.exists_advance (reach.advances run).inv (Bool.not_eq_false _ ▸ active)
  exact stuck r'' advance

theorem syncLocked_drains :
    ∃ r : Reactor, r.Reachable ∧ (r.threads 0).active = true ∧
      Acc (fun r' r => r.Advance r') r :=
  have reach :=
    Reactor.Reachable.step (.run 0) (.step (.run 0) (.step (.call 0 .sync) .init rfl) rfl) rfl
  ⟨_, reach, rfl, (reactor_drains _ reach).1⟩

theorem Thread.remaining_of_inactive {th : Thread} (inactive : th.active = false) :
    th.remaining = 0 := by
  rcases th with _ | pc | ⟨_, pc⟩ | _ | _ <;> (try cases pc) <;>
    first | rfl | cases inactive

/-- A forwarding call past its syncer call, or past finding no syncer: at `RUnlock` or
returned. -/
def Thread.pastCall : Thread → Bool
  | .forward _ .runlock | .forward _ .returned => true
  | _ => false

namespace Reactor

variable {r r' r₁ : Reactor} {t : ThreadId} {event : Event} {s : SyncerId}

theorem not_advance_of_inactive (inactive : ∀ t, (r.threads t).active = false) :
    ¬ r.Advance r' := fun advance => by
  obtain ⟨t, th, -, lt⟩ := advance_shape advance
  rw [Thread.remaining_of_inactive (inactive t)] at lt
  exact Nat.not_lt_zero _ lt

/-- A step that delivers is the call statement of the goroutine taking it, which moves on to
`RUnlock`. -/
theorem step_delivers {a : Action} (step : r.step a = some r') :
    r'.delivered = r.delivered ∨ ∃ s event, r.threads a.thread = .forward event .call ∧
      r'.threads a.thread = .forward event .runlock ∧ r'.delivered = r.delivered ++ [(s, event)] := by
  cases a with
  | run t =>
    simp only [Reactor.step] at step
    split at step
    · exact .inl (runSync_ghosts step).2
    · rename_i event pc ht
      cases pc <;> simp only [runForward, Option.map_eq_some'] at step
      all_goals (try split at step) <;> (try obtain ⟨_, _, rfl⟩ := step)
      all_goals (try (simp; done))
      exact .inr ⟨_, event, ht, by simp [Action.thread], rfl⟩
    · cases step
  | _ =>
    simp only [Reactor.step] at step
    split at step <;> cases step
    exact .inl rfl

theorem step_pastCall {a : Action} (step : r.step a = some r')
    (past : (r.threads t).pastCall = true) : (r'.threads t).pastCall = true := by
  obtain ⟨th, threads⟩ := step_threads step
  by_cases actor : a.thread = t
  · obtain ⟨event, ht | ht⟩ : ∃ event, r.threads t = .forward event .runlock ∨
        r.threads t = .forward event .returned := by
      rcases th' : r.threads t with _ | _ | ⟨event, _ | _ | _ | _ | _⟩ | _ | _ <;>
        simp_all [Thread.pastCall]
    all_goals cases a <;> simp only [Action.thread] at actor <;> subst actor <;>
      simp [Reactor.step, ht, runForward] at step
    subst step
    simp [Thread.pastCall]
  · rwa [threads, Function.update_noteq (Ne.symm actor)]

/-- What a schedule delivers to syncers, in order, each with the goroutine whose step
delivered it. -/
def deliveries (r : Reactor) : List Action → List (ThreadId × SyncerId × Event)
  | [] => []
  | a :: as =>
    match r.step a with
    | none => []
    | some r₁ => (r₁.delivered.drop r.delivered.length).map (a.thread, ·) ++ r₁.deliveries as

theorem deliveries_cons {a : Action} {as : List Action} (step : r.step a = some r₁) :
    r.deliveries (a :: as) =
      (r₁.delivered.drop r.delivered.length).map (a.thread, ·) ++ r₁.deliveries as := by
  simp [deliveries, step]

/-- Over a schedule, the delivered calls grow by what it delivers, each by a goroutine that had
not yet made its call when the schedule began, and no goroutine delivers twice. -/
theorem runAll_deliveries (as : List Action) (run : r.runAll as = some r') :
    r'.delivered = r.delivered ++ (r.deliveries as).map Prod.snd ∧
      (∀ d ∈ r.deliveries as, (r.threads d.1).pastCall = false) ∧
      ((r.deliveries as).map Prod.fst).Nodup := by
  induction as generalizing r with
  | nil => cases run; simp [deliveries]
  | cons a as ih =>
    obtain ⟨r₁, step, rest⟩ := Option.bind_eq_some.mp run
    obtain ⟨grows, fresh, nodup⟩ := ih rest
    have stillFresh {u : ThreadId} (fresh₁ : (r₁.threads u).pastCall = false) :
        (r.threads u).pastCall = false :=
      Bool.eq_false_iff.mpr fun past => by simp [step_pastCall step past] at fresh₁
    rw [deliveries_cons step]
    rcases step_delivers step with same | ⟨s, event, before, after, appended⟩
    · simp only [same, List.drop_length, List.map_nil, List.nil_append]
      exact ⟨grows.trans (by rw [same]), fun d mem => stillFresh (fresh d mem), nodup⟩
    · simp only [appended, List.drop_left, List.map_cons, List.map_nil, List.singleton_append,
        List.mem_cons, forall_eq_or_imp, List.nodup_cons]
      refine ⟨by simp [grows, appended], ⟨by simp [before, Thread.pastCall],
        fun d mem => stillFresh (fresh d mem)⟩, fun mem => ?_, nodup⟩
      obtain ⟨d, mem, same⟩ := List.mem_map.mp mem
      simpa [same, after, Thread.pastCall] using fresh d mem

/-- Goroutine `t` forwards `event` holding the read lock, at the `r.syncer == nil` check or
at the call, with syncer `s` in session. -/
def Forwarding (r : Reactor) (t : ThreadId) (event : Event) (s : SyncerId) : Prop :=
  r.syncer = some s ∧ (r.threads t = .forward event .check ∨ r.threads t = .forward event .call)

theorem Forwarding.reads (fwd : r.Forwarding t event s) : (r.threads t).reads = true := by
  rcases fwd.2 with ht | ht <;> simp [ht, Thread.reads]

theorem Forwarding.advances (inv : Inv r) (fwd : r.Forwarding t event s) : ∃ r', r.Advance r' :=
  exists_advance inv (t := t) (by rcases fwd.2 with ht | ht <;> simp [ht, Thread.active])

/-- One step of any goroutine keeps a forwarding call pending, or is that call's own step
delivering its event to `s`. -/
theorem Forwarding.step {a : Action} (inv : Inv r) (fwd : r.Forwarding t event s)
    (step : r.step a = some r') :
    r'.Forwarding t event s ∨ (a.thread = t ∧ r'.delivered = r.delivered ++ [(s, event)]) := by
  have pinned : r'.syncer = r.syncer := (step_syncer step).resolve_right fun ⟨u, writes⟩ => by
    simpa [inv.not_reads ((inv.thread u).writer.mpr writes) t] using fwd.reads
  obtain ⟨th, threads⟩ := step_threads step
  by_cases actor : a.thread = t
  · cases a with
    | run u =>
      obtain rfl : u = t := actor
      rcases fwd.2 with ht | ht <;>
        simp only [Reactor.step, ht, runForward, fwd.1, Option.some.injEq] at step <;> subst step
      · exact .inl ⟨fwd.1, .inr (by simp)⟩
      · exact .inr ⟨rfl, rfl⟩
    | call u _ | syncAnyReturns u _ =>
      obtain rfl : u = t := actor
      rcases fwd.2 with ht | ht <;> simp [Reactor.step, ht] at step
  · have same : r'.threads t = r.threads t := by rw [threads, Function.update_noteq (Ne.symm actor)]
    exact .inl ⟨pinned.trans fwd.1, same ▸ fwd.2⟩

theorem Forwarding.runAll (reach : r.Reachable) (fwd : r.Forwarding t event s) (as : List Action)
    (run : r.runAll as = some r') :
    r'.Forwarding t event s ∨ (t, s, event) ∈ r.deliveries as := by
  induction as generalizing r with
  | nil => cases run; exact .inl fwd
  | cons a as ih =>
    obtain ⟨r₁, step, rest⟩ := Option.bind_eq_some.mp run
    rw [deliveries_cons step]
    rcases fwd.step reach.inv step with pending | ⟨actor, appended⟩
    · exact (ih (.step a reach step) pending rest).imp_right (List.mem_append_right _)
    · exact .inr (by simp [appended, actor])

end Reactor

/-- From `addPeerChecking`, goroutine 1 runs to the end, then goroutine 0. -/
def addPeerDrain : List Action :=
  [.run 1, .run 1, .run 1, .run 0, .run 0, .syncAnyReturns 0 none, .run 0, .run 0, .run 0, .run 0,
    .run 0]

def addPeerDrained : Reactor := (addPeerChecking.runAll addPeerDrain).getD .init

theorem addPeerChecking_runAll : addPeerChecking.runAll addPeerDrain = some addPeerDrained := rfl

theorem addPeerDrained_stuck : ∀ r'', ¬ addPeerDrained.Advance r'' := fun _ =>
  Reactor.not_advance_of_inactive fun t => by rcases t with _ | _ | t <;> rfl

/-- Each forwarded call is delivered once. Over every schedule, the calls delivered to syncers
grow by exactly what the schedule's steps deliver, and no goroutine delivers twice: each
forwarding call makes its syncer call at most once. A forwarding call that holds the read lock
while syncer `s` is in session delivers its event to `s` itself, on every schedule that ends
where the goroutines inside the reactor can no longer move; so it is delivered exactly once. -/
theorem forwarding_call_delivers_once :
    (∀ (r r' : Reactor) (as : List Action), r.runAll as = some r' →
      r'.delivered = r.delivered ++ (r.deliveries as).map Prod.snd ∧
      ((r.deliveries as).map Prod.fst).Nodup) ∧
    ∀ (r r' : Reactor) (as : List Action) (t : ThreadId) (event : Event) (s : SyncerId),
      r.Reachable → r.syncer = some s →
      (r.threads t = .forward event .check ∨ r.threads t = .forward event .call) →
      r.runAll as = some r' → (∀ r'', ¬ r'.Advance r'') → (t, s, event) ∈ r.deliveries as := by
  refine ⟨fun r r' as run => ?_, fun r r' as t event s reach syncer pending run stuck => ?_⟩
  · obtain ⟨grows, -, nodup⟩ := Reactor.runAll_deliveries as run
    exact ⟨grows, nodup⟩
  · refine (Reactor.Forwarding.runAll reach ⟨syncer, pending⟩ as run).resolve_left fun fwd => ?_
    obtain ⟨r'', advance⟩ := fwd.advances (reach.steps (Reactor.runAll_steps as run)).inv
    exact stuck r'' advance

/-- Goroutine 1's `AddPeer` in `addPeerChecking` is delivered to syncer 0 by goroutine 1. -/
theorem addPeer_delivered_once :
    ∃ (r r' : Reactor) (as : List Action), r.Reachable ∧ r.syncer = some 0 ∧
      (r.threads 1 = .forward (.addPeer "") .check ∨ r.threads 1 = .forward (.addPeer "") .call) ∧
      r.runAll as = some r' ∧ (∀ r'', ¬ r'.Advance r'') ∧
      (1, 0, .addPeer "") ∈ r.deliveries as :=
  ⟨_, _, _, addPeerChecking_reachable, rfl, .inl rfl, addPeerChecking_runAll,
    addPeerDrained_stuck, forwarding_call_delivers_once.2 _ _ _ 1 _ 0 addPeerChecking_reachable
      rfl (.inl rfl) addPeerChecking_runAll addPeerDrained_stuck⟩

end CelestiaCore.StateSync
