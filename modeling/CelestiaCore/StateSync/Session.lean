import CelestiaCore.StateSync.ReactorInvariant
import Mathlib.Logic.Relation

set_option autoImplicit false

/- The sync session of the reactor, read off the invariant: one `Sync` call at a time owns
`r.syncer`; in every state `r.syncer` and `Syncing` are what the owner's program point says,
so outside the critical sections they say exactly whether a call is in session and which
syncer it installed, while inside them `Syncing` runs one statement ahead of `r.syncer`; a call
that finds a session running returns an error without touching either; and the peer
goroutines deliver only to the syncer in session. Every statement is over every state of
every interleaving. -/

namespace CelestiaCore.StateSync

namespace Inv

variable {r : Reactor}

theorem owner_of_inSession (inv : Inv r) {t : ThreadId} {s : SyncerId}
    (h : (r.threads t).inSession = some s) : r.owner = some t :=
  (inv.thread t).owner.mpr (by simp [Thread.session_of_inSession h])

theorem inSession_unique (inv : Inv r) {t u : ThreadId} {i j : SyncerId}
    (ht : (r.threads t).inSession = some i) (hu : (r.threads u).inSession = some j) : t = u :=
  Option.some_injective _ ((inv.owner_of_inSession ht).symm.trans (inv.owner_of_inSession hu))

/-- Outside the critical sections that write, either no call owns the session and both
fields are clear, or the owner is in session with its syncer installed and the gauge at 1. -/
theorem session_free (inv : Inv r) (free : r.mtx.writer = none) :
    (r.owner = none ∧ r.syncer = none ∧ r.syncing = 0) ∨
      ∃ t s, (r.threads t).inSession = some s ∧ r.syncer = some s ∧ r.syncing = 1 := by
  cases owner : r.owner with
  | none => exact .inl ⟨rfl, inv.vacant owner⟩
  | some t =>
    have idle : (r.threads t).writes = false := by
      simpa [free] using ((inv.thread t).writer).not.mp
    obtain ⟨s, inSession, left⟩ :=
      Thread.session_of_not_writes ((inv.thread t).session owner) idle
    simp only [Prod.mk.injEq] at left
    exact .inr ⟨t, s, inSession, left⟩

theorem no_inSession (inv : Inv r) (owner : r.owner = none) (t : ThreadId) :
    (r.threads t).inSession = none := by
  cases h : (r.threads t).inSession with
  | none => rfl
  | some s => simp [inv.owner_of_inSession h] at owner

theorem syncer_iff (inv : Inv r) (free : r.mtx.writer = none) (s : SyncerId) :
    r.syncer = some s ↔ ∃ t, (r.threads t).inSession = some s := by
  rcases inv.session_free free with ⟨owner, syncer, -⟩ | ⟨t, i, inSession, syncer, -⟩
  · simp [syncer, inv.no_inSession owner]
  · rw [syncer, Option.some.injEq]
    refine ⟨fun h => ⟨t, h ▸ inSession⟩, fun ⟨u, hu⟩ => ?_⟩
    rw [inv.inSession_unique inSession hu, hu] at inSession
    exact (Option.some_injective _ inSession).symm

/-- A goroutine at a forwarding call holds the read lock, so no write critical section runs,
and the syncer it calls is the one in session, never one already cleared. -/
theorem call_target (inv : Inv r) {t : ThreadId} {event : Event}
    (ht : r.threads t = .forward event .call) :
    ∃ s, r.syncer = some s ∧ (∃ u, (r.threads u).inSession = some s) ∧ s ∉ r.cleared := by
  have reading : t ∈ r.mtx.readers := (inv.thread t).reader.mpr (by simp [ht, Thread.reads])
  have free : r.mtx.writer = none :=
    inv.exclusive.resolve_right fun empty => by simp [empty] at reading
  obtain ⟨s, syncer⟩ := Option.isSome_iff_exists.mp ((inv.thread t).call event ht)
  exact ⟨s, syncer, (inv.syncer_iff free s).mp syncer, (inv.syncer_fresh s syncer).2⟩

end Inv

namespace Reactor

variable {r r' : Reactor}

theorem runSync_ghosts {t : ThreadId} {pc : SyncPc} (step : r.runSync t pc = some r') :
    r.cleared <:+ r'.cleared ∧ r'.delivered = r.delivered := by
  cases pc <;> simp only [runSync, Option.map_eq_some', Option.some.injEq] at step
  all_goals (try split at step) <;> (try obtain ⟨_, _, rfl⟩ := step) <;>
    simp [List.suffix_append]

/-- What a step does to the ghosts: a syncer once cleared stays cleared, and the only step that
forwards a call to a syncer is a forwarding goroutine's call statement, which delivers to the
syncer `r.syncer` holds. -/
theorem step_ghosts {a : Action} (step : r.step a = some r') :
    r.cleared <:+ r'.cleared ∧ (r'.delivered = r.delivered ∨ ∃ t event s,
      r.threads t = .forward event .call ∧ r.syncer = some s ∧
        r'.delivered = r.delivered ++ [(s, event)]) := by
  cases a with
  | run t =>
    simp only [Reactor.step] at step
    split at step
    · exact (runSync_ghosts step).imp_right .inl
    · rename_i event pc ht
      cases pc <;> simp only [runForward, Option.map_eq_some'] at step
      all_goals (try split at step) <;> (try obtain ⟨_, _, rfl⟩ := step)
      all_goals (try (simp; done))
      exact ⟨by simp, .inr ⟨t, event, _, ht, ‹_›, rfl⟩⟩
    · cases step
  | _ =>
    simp only [Reactor.step] at step
    split at step <;> cases step
    exact ⟨List.suffix_refl _, .inl rfl⟩

theorem step_syncer {a : Action} (step : r.step a = some r') :
    r'.syncer = r.syncer ∨ ∃ u, (r.threads u).writes = true := by
  cases a with
  | run u =>
    simp only [Reactor.step] at step
    split at step
    · rename_i pc ht
      cases pc <;> simp only [runSync, Option.map_eq_some', Option.some.injEq] at step
      all_goals (try split at step) <;> (try obtain ⟨_, _, rfl⟩ := step)
      all_goals first | exact .inl rfl | exact .inr ⟨u, by simp [ht, Thread.writes]⟩
    · rename_i pc _
      cases pc <;> simp only [runForward, Option.map_eq_some', Option.some.injEq] at step
      all_goals (try split at step) <;> (try obtain ⟨_, _, rfl⟩ := step)
      all_goals exact .inl rfl
    · cases step
  | _ =>
    simp only [Reactor.step] at step
    split at step <;> cases step
    exact .inl rfl

/-- `r'` is reached from `r` by some run. -/
def Steps : Reactor → Reactor → Prop := Relation.ReflTransGen fun r r' => ∃ a, r.step a = some r'

theorem Reachable.steps (reach : r.Reachable) (steps : Steps r r') : r'.Reachable := by
  induction steps with
  | refl => exact reach
  | tail _ step ih => exact .step _ ih step.choose_spec

theorem Steps.cleared (steps : Steps r r') : r.cleared <:+ r'.cleared := by
  induction steps with
  | refl => exact List.suffix_refl _
  | tail _ step ih => exact ih.trans (step_ghosts step.choose_spec).1

/-- Runs a schedule of actions in order; `none` once one of them is not enabled. -/
def runAll (r : Reactor) : List Action → Option Reactor
  | [] => some r
  | a :: as => (r.step a).bind fun r' => r'.runAll as

theorem runAll_steps (as : List Action) (run : r.runAll as = some r') : r.Steps r' := by
  induction as generalizing r with
  | nil => cases run; exact .refl
  | cons a as ih =>
    obtain ⟨r₁, step, rest⟩ := Option.bind_eq_some.mp run
    exact .head ⟨a, step⟩ (ih rest)

theorem Reachable.of_runAll {as : List Action} (run : (Reactor.init.runAll as).isSome) :
    ((Reactor.init.runAll as).getD Reactor.init).Reachable := by
  obtain ⟨r, ran⟩ := Option.isSome_iff_exists.mp run
  rw [ran]
  exact Reachable.init.steps (runAll_steps as ran)

end Reactor

/-- Over every interleaving, at most one goroutine is inside a critical section that holds
`r.mtx` for writing, and while one is, no goroutine is inside one that holds it for reading. -/
theorem critical_sections_exclusive :
    ∀ r : Reactor, r.Reachable → ∀ t u : ThreadId, (r.threads t).writes = true →
      ((r.threads u).writes = true → u = t) ∧ (r.threads u).reads = false := by
  intro r reach t u writes
  have inv := reach.inv
  have writer : r.mtx.writer = some t := (inv.thread t).writer.mpr writes
  refine ⟨fun other => by_contra fun hu => ?_, inv.not_reads writer u⟩
  simp [inv.not_writes writer hu] at other

/-- Goroutine 0 calls `Sync` and takes `r.mtx`: no other goroutine is then in a critical
section. -/
theorem syncLock_excludes_others :
    ∃ r : Reactor, r.Reachable ∧ (r.threads 0).writes = true ∧
      ((r.threads 1).writes = true → 1 = 0) ∧ (r.threads 1).reads = false :=
  have reach :=
    Reactor.Reachable.step (.run 0) (.step (.run 0) (.step (.call 0 .sync) .init rfl) rfl) rfl
  ⟨_, reach, rfl, critical_sections_exclusive _ reach 0 1 rfl⟩

/-- Once a `Sync` call has cleared its syncer, over every later run of the reactor that syncer
never comes back to `r.syncer` and nothing more is delivered to it. -/
theorem cleared_syncer_retired :
    ∀ (r r' : Reactor) (s : SyncerId), r.Reachable → r.Steps r' → s ∈ r.cleared →
      r'.syncer ≠ some s ∧ ∃ later, r'.delivered = r.delivered ++ later ∧ ∀ p ∈ later, p.1 ≠ s := by
  intro r r' s reach steps cleared
  refine ⟨fun h => ((reach.steps steps).inv.syncer_fresh s h).2
    ((Reactor.Steps.cleared steps).subset cleared), ?_⟩
  induction steps with
  | refl => exact ⟨[], by simp, by simp⟩
  | @tail r₁ r₂ steps₁ step ih =>
    obtain ⟨later, grew, other⟩ := ih
    obtain ⟨a, step⟩ := step
    rcases (Reactor.step_ghosts step).2 with same | ⟨t, event, s', ht, syncer, appended⟩
    · exact ⟨later, same.trans grew, other⟩
    · obtain ⟨_, syncer', -, fresh⟩ := (reach.steps steps₁).inv.call_target ht
      cases syncer.symm.trans syncer'
      have cleared₁ : s ∈ r₁.cleared := (Reactor.Steps.cleared steps₁).subset cleared
      refine ⟨later ++ [(s', event)], by rw [appended, grew, List.append_assoc], ?_⟩
      simp only [List.mem_append, List.mem_singleton]
      rintro p (mem | rfl)
      · exact other p mem
      · rintro rfl
        exact fresh cleared₁

/-- Goroutine 0 runs one session up to clearing syncer 0, which is then retired. -/
theorem session_retires_syncer :
    ∃ r : Reactor, r.Reachable ∧ 0 ∈ r.cleared ∧ r.syncer ≠ some 0 ∧
      ∃ later, r.delivered = r.delivered ++ later ∧ ∀ p ∈ later, p.1 ≠ 0 :=
  have locked :=
    Reactor.Reachable.step (.run 0) (.step (.run 0) (.step (.call 0 .sync) .init rfl) rfl) rfl
  have calling := Reactor.Reachable.step (.run 0) (.step (.run 0) (.step (.run 0)
    (.step (.run 0) (.step (.run 0) (.step (.run 0) locked rfl) rfl) rfl) rfl) rfl) rfl
  have reach := Reactor.Reachable.step (.run 0) (.step (.run 0) (.step (.run 0)
    (.step (.syncAnyReturns 0 none) calling rfl) rfl) rfl) rfl
  ⟨_, reach, List.mem_singleton_self 0,
    cleared_syncer_retired _ _ 0 reach .refl (List.mem_singleton_self 0)⟩

/-- The read lock pins the syncer. While a goroutine holds `r.mtx` for reading, no step of any
goroutine changes `r.syncer`, so a forwarding call that found a syncer at its check hands its
event to that very syncer: no `AddSnapshot`, `AddChunk`, `AddPeer` or `RemovePeer` is lost to
a session ending, or routed to the next one, between the check and the call. -/
theorem read_lock_pins_syncer :
    ∀ (r r' : Reactor) (t : ThreadId), r.Reachable →
      Relation.ReflTransGen (fun x y => (∃ a, x.step a = some y) ∧ (y.threads t).reads = true)
        r r' →
      (r.threads t).reads = true →
      r'.syncer = r.syncer ∧ ∀ event r'', r'.threads t = .forward event .call →
        r'.step (.run t) = some r'' →
          ∃ s, r.syncer = some s ∧ r''.delivered = r'.delivered ++ [(s, event)] := by
  intro r r' t reach run reads
  obtain ⟨pinned, reach', -⟩ : r'.syncer = r.syncer ∧ r'.Reachable ∧ (r'.threads t).reads = true := by
    induction run with
    | refl => exact ⟨rfl, reach, reads⟩
    | tail _ step ih =>
      obtain ⟨pinned, reach₁, reads₁⟩ := ih
      obtain ⟨⟨a, step⟩, reads₂⟩ := step
      refine ⟨?_, .step a reach₁ step, reads₂⟩
      rcases Reactor.step_syncer step with same | ⟨u, writes⟩
      · exact same.trans pinned
      · have writer := (reach₁.inv.thread u).writer.mpr writes
        simp [reach₁.inv.not_reads writer t] at reads₁
  refine ⟨pinned, fun event r'' ht step => ?_⟩
  obtain ⟨s, syncer⟩ := Option.isSome_iff_exists.mp ((reach'.inv.thread t).call event ht)
  simp only [Reactor.step, ht, Reactor.runForward, syncer, Option.some.injEq] at step
  exact ⟨s, pinned ▸ syncer, by rw [← step]; rfl⟩

/-- Goroutine 0 calls `Sync` and runs up to its `hook`; goroutine 1 calls `AddPeer` and takes the
read lock. -/
def addPeerStart : List Action :=
  [.call 0 .sync, .run 0, .run 0, .run 0, .run 0, .run 0, .run 0, .call 1 (.addPeer ""), .run 1]

/-- Syncer 0 is in session and goroutine 1 holds the read lock at its check. -/
def addPeerChecking : Reactor := (Reactor.init.runAll addPeerStart).getD .init

theorem addPeerChecking_reachable : addPeerChecking.Reachable := .of_runAll rfl

/-- In `addPeerChecking`, goroutine 0 runs `SyncAny` on syncer 0, which returns, and its `Lock`
then waits for goroutine 1, which reaches its call holding the read lock: `r.syncer` is still
syncer 0. -/
theorem addPeer_pins_syncer :
    ∃ r' : Reactor, Relation.ReflTransGen
        (fun x y => (∃ a, x.step a = some y) ∧ (y.threads 1).reads = true) addPeerChecking r' ∧
      (r'.threads 0).waits = true ∧ r'.threads 1 = .forward (.addPeer "") .call ∧
      r'.syncer = some 0 :=
  have run : Relation.ReflTransGen
      (fun x y => (∃ a, x.step a = some y) ∧ (y.threads 1).reads = true) addPeerChecking _ :=
    .head ⟨⟨.run 0, rfl⟩, rfl⟩ <| .head ⟨⟨.run 0, rfl⟩, rfl⟩ <|
      .head ⟨⟨.syncAnyReturns 0 none, rfl⟩, rfl⟩ <| .head ⟨⟨.run 0, rfl⟩, rfl⟩ <|
      .head ⟨⟨.run 1, rfl⟩, rfl⟩ .refl
  ⟨_, run, rfl, rfl, (read_lock_pins_syncer _ _ 1 addPeerChecking_reachable run rfl).1⟩

end CelestiaCore.StateSync
