import CelestiaCore.StateSync.Session

set_option autoImplicit false

/- The session protocol `Sync` implements, stated as its purpose: a node is free, or one call
owns the session, first without a syncer and then with the one it installed. The reactor's
ghost owner and its `r.syncer` stand for that session, and every interleaving of the reactor
is a run of the protocol in which only the owner moves. -/

namespace CelestiaCore.StateSync

/-- The session `Sync` keeps, as its purpose states it: the node is free, or one `Sync` call
owns the session, before it installs a syncer or while its syncer is installed. -/
inductive Session
  | free
  | claimed (owner : ThreadId)
  | running (owner : ThreadId) (syncer : SyncerId)
  deriving DecidableEq, Repr

/-- What goroutine `t` may do to the session: claim a free node, install a syncer in the
session it owns, clear that syncer, and give the session up. -/
inductive Session.Step (t : ThreadId) : Session → Session → Prop
  | claim : Step t .free (.claimed t)
  | install (s : SyncerId) : Step t (.claimed t) (.running t s)
  | clear (s : SyncerId) : Step t (.running t s) (.claimed t)
  | release : Step t (.claimed t) .free

namespace Reactor

/-- The session a reactor state stands for. -/
def session (r : Reactor) : Session :=
  match r.owner, r.syncer with
  | none, _ => .free
  | some t, none => .claimed t
  | some t, some s => .running t s

variable {r r' : Reactor} {t : ThreadId}

theorem runSync_refines {pc : SyncPc} (inv : Inv r) (ht : r.threads t = .sync pc)
    (step : r.runSync t pc = some r') :
    r'.session = r.session ∨ Session.Step t r.session r'.session := by
  have ok := ht ▸ inv.thread t
  cases pc with
  | lock | lockWait | relock | relockWait =>
    obtain ⟨_, -, rfl⟩ := Option.map_eq_some'.mp step
    exact .inl rfl
  | check =>
    simp only [runSync] at step
    split at step <;> cases step
    · exact .inl rfl
    · rename_i vacant
      simp [session, inv.owner_of_check ht vacant, vacant, Session.Step.claim]
  | install =>
    cases step
    obtain ⟨noSyncer, -⟩ : r.syncer = none ∧ r.syncing = 1 := ok.left rfl
    simp [session, ok.owner.mpr rfl, noSyncer, Session.Step.install]
  | clear id result =>
    cases step
    have installed : r.syncer = some id := (ok.left (p := (some id, 1)) rfl).1
    simp [session, ok.owner.mpr rfl, installed, Session.Step.clear]
  | unlockCleared id result =>
    cases step
    obtain ⟨noSyncer, -⟩ : r.syncer = none ∧ r.syncing = 0 := ok.left rfl
    simp [session, ok.owner.mpr rfl, noSyncer, Session.Step.release]
  | callSyncAny id =>
    simp only [runSync] at step
    split at step <;> cases step <;> exact .inl rfl
  | syncAny | returned => cases step
  | _ =>
    cases step
    exact .inl rfl

theorem runForward_session {event : Event} {pc : ForwardPc}
    (step : r.runForward t event pc = some r') : r'.session = r.session := by
  cases pc <;> simp only [runForward] at step
  all_goals (try split at step) <;> (try obtain ⟨_, -, rfl⟩ := Option.map_eq_some'.mp step)
  all_goals first | rfl | (cases step <;> rfl)

/-- Every step of the reactor leaves the session alone or is one step of the session
protocol, taken by the goroutine that ran. -/
theorem step_refines {a : Action} (inv : Inv r) (step : r.step a = some r') :
    r'.session = r.session ∨ ∃ t, a = .run t ∧ Session.Step t r.session r'.session := by
  cases a with
  | run t =>
    simp only [Reactor.step] at step
    split at step
    · exact (runSync_refines inv ‹_› step).imp_right fun h => ⟨t, rfl, h⟩
    · exact .inl (runForward_session step)
    · cases step
  | _ =>
    simp only [Reactor.step] at step
    split at step <;> cases step
    exact .inl rfl

theorem Steps.refines (reach : r.Reachable) (steps : r.Steps r') :
    Relation.ReflTransGen (fun x y => ∃ t, Session.Step t x y) r.session r'.session := by
  induction steps with
  | refl => exact .refl
  | tail steps₁ step ih =>
    obtain ⟨a, step⟩ := step
    rcases step_refines (reach.steps steps₁).inv step with same | ⟨t, -, protocol⟩
    · exact same ▸ ih
    · exact ih.tail ⟨t, protocol⟩

end Reactor

/-- The reactor implements the session protocol. The node starts free; in every reachable
state the session is free exactly when no call owns it and no syncer is installed; every step
leaves the session alone or is one protocol step taken by the goroutine that ran (claim a free
node, install a syncer, clear it, give the session up); so every run of the reactor is a run
of the protocol. -/
theorem sync_refines_session_protocol :
    Reactor.init.session = .free ∧
    (∀ r : Reactor, r.Reachable → (r.session = .free ↔ r.owner = none ∧ r.syncer = none)) ∧
    (∀ (r r' : Reactor) (a : Action), r.Reachable → r.step a = some r' →
      r'.session = r.session ∨ ∃ t, a = .run t ∧ Session.Step t r.session r'.session) ∧
    ∀ r r' : Reactor, r.Reachable → r.Steps r' →
      Relation.ReflTransGen (fun x y => ∃ t, Session.Step t x y) r.session r'.session := by
  refine ⟨rfl, fun r reach => ?_, fun r r' a reach step => Reactor.step_refines reach.inv step,
    fun r r' reach steps => Reactor.Steps.refines reach steps⟩
  have vacant := reach.inv.vacant
  unfold Reactor.session
  split <;> simp_all

end CelestiaCore.StateSync
