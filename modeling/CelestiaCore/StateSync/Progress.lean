import CelestiaCore.StateSync.ReactorInvariant

set_option autoImplicit false

/- Progress of the reactor: no interleaving of `Sync`, `Receive`, `AddPeer` and `RemovePeer`
calls ends in a state where goroutines are inside the reactor and none can move. A goroutine
inside a critical section never blocks, so whoever holds `r.mtx` can run; a pending `Lock`
holds off new readers, and once the readers in have left it gets the mutex; with the mutex
free, every lock succeeds. `SyncAny` returning is a step of its own, always enabled. -/

namespace CelestiaCore.StateSync

/-- The goroutine is inside a call: not idle, not returned, and not a `Receive` done without
the mutex. -/
def Thread.active : Thread → Bool
  | .sync (.returned _) | .forward _ .returned | .idle | .served _ | .panicked => false
  | _ => true

namespace Reactor

variable {r : Reactor} {t : ThreadId}

theorem run_of_writes (writes : (r.threads t).writes = true) : (r.step (.run t)).isSome := by
  rcases th : r.threads t with _ | pc | ⟨_, _⟩ | _ | _ <;> simp only [th, Thread.writes] at writes
  all_goals (try cases writes)
  cases pc <;> simp only [Thread.writes] at writes <;> (try cases writes) <;>
    cases syncer : r.syncer <;> simp [step, th, runSync, syncer]

theorem run_of_reads (reads : (r.threads t).reads = true) : (r.step (.run t)).isSome := by
  rcases th : r.threads t with _ | _ | ⟨event, pc⟩ | _ | _ <;> simp only [th, Thread.reads] at reads
  all_goals (try cases reads)
  cases pc <;> simp only [Thread.reads] at reads <;> (try cases reads) <;>
    cases syncer : r.syncer <;> simp [step, th, runForward, syncer]

/-- A pending `Lock` gets the mutex once no reader is left. -/
theorem run_of_waits (waits : (r.threads t).waits = true) (empty : r.mtx.readers = []) :
    (r.step (.run t)).isSome := by
  rcases th : r.threads t with _ | pc | _ | _ | _ <;> simp only [th, Thread.waits] at waits
  all_goals (try cases waits)
  cases pc <;> simp only [Thread.waits] at waits <;> (try cases waits) <;>
    simp [step, th, runSync, RWMutex.awaitReaders, empty]

theorem holder_runs (inv : Inv r)
    (held : ¬ (r.mtx.writer = none ∧ r.mtx.pending = none ∧ r.mtx.readers = [])) :
    ∃ u, (r.step (.run u)).isSome := by
  by_cases readers : r.mtx.readers = []
  · rcases not_and_or.mp held with writer | pending
    · obtain ⟨w, hw⟩ := Option.ne_none_iff_exists'.mp writer
      exact ⟨w, run_of_writes ((inv.thread w).writer.mp hw)⟩
    · obtain ⟨w, hw⟩ := Option.ne_none_iff_exists'.mp (not_and'.mp pending readers)
      exact ⟨w, run_of_waits ((inv.thread w).pending.mp hw) readers⟩
  · obtain ⟨u, rest, hu⟩ := List.exists_cons_of_ne_nil readers
    exact ⟨u, run_of_reads ((inv.thread u).reader.mp (by simp [hu]))⟩

theorem active_steps (free : r.mtx.writer = none ∧ r.mtx.pending = none ∧ r.mtx.readers = [])
    (active : (r.threads t).active = true) :
    (r.step (.run t)).isSome ∨ (r.step (.syncAnyReturns t none)).isSome := by
  rcases th : r.threads t with _ | pc | ⟨event, pc⟩ | _ | _ <;>
    simp only [th, Thread.active] at active
  all_goals (try cases active)
  · cases pc <;> (try cases active) <;> cases syncer : r.syncer <;>
      simp [step, th, runSync, syncer, RWMutex.lock, RWMutex.awaitReaders, free]
  · cases pc <;> (try cases active) <;> cases syncer : r.syncer <;>
      simp [step, th, runForward, syncer, RWMutex.rlock, free]

/-- A step that is not a new call: a goroutine inside the reactor runs its next statement, or
its `SyncAny` returns. -/
def Advance (r r' : Reactor) : Prop := ∃ a, (∀ u c, a ≠ Action.call u c) ∧ r.step a = some r'

theorem exists_advance (inv : Inv r) (active : (r.threads t).active = true) :
    ∃ r', r.Advance r' := by
  have enabled {a : Action} (notCall : ∀ u c, a ≠ .call u c) (runs : (r.step a).isSome) :
      ∃ r', r.Advance r' :=
    (Option.isSome_iff_exists.mp runs).imp fun _ step => ⟨a, notCall, step⟩
  by_cases free : r.mtx.writer = none ∧ r.mtx.pending = none ∧ r.mtx.readers = []
  · rcases active_steps free active with run | returns
    · exact enabled (by simp) run
    · exact enabled (by simp) returns
  · obtain ⟨u, run⟩ := holder_runs inv free
    exact enabled (by simp) run

end Reactor

/-- The reactor never deadlocks: in every reachable state with a goroutine inside a call, some
goroutine can run its next statement or have its `SyncAny` return. -/
theorem reactor_deadlock_free :
    ∀ r : Reactor, r.Reachable → ∀ t, (r.threads t).active = true →
      ∃ a r', r.step a = some r' ∧ ∀ u c, a ≠ .call u c := by
  intro r reach t active
  obtain ⟨r', a, notCall, step⟩ := Reactor.exists_advance reach.inv active
  exact ⟨a, r', step, notCall⟩

theorem syncLocked_not_stuck :
    ∃ r : Reactor, r.Reachable ∧ (r.threads 0).active = true ∧
      ∃ a r', r.step a = some r' ∧ ∀ u c, a ≠ .call u c :=
  have reach :=
    Reactor.Reachable.step (.run 0) (.step (.run 0) (.step (.call 0 .sync) .init rfl) rfl) rfl
  ⟨_, reach, rfl, reactor_deadlock_free _ reach 0 rfl⟩

end CelestiaCore.StateSync
