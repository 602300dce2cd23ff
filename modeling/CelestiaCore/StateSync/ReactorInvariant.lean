import CelestiaCore.StateSync.Reactor

set_option autoImplicit false

/- The session invariant of the reactor: every reachable state keeps the ghost owner, the
mutex's ghost holders (the writer, the pending `Lock` and the readers) and each goroutine's
program point in step. It holds initially and
every step of every goroutine keeps it (`Inv.step`), so it holds of every interleaving. -/

namespace CelestiaCore.StateSync

namespace Thread

/-- The goroutine holds `r.mtx` for writing. -/
def writes : Thread → Bool
  | .sync .check | .sync .unlockBusy | .sync .setSyncing | .sync .install
  | .sync (.unlockInstalled _) | .sync (.clear _ _) | .sync (.resetSyncing _ _)
  | .sync (.unlockCleared _ _) => true
  | _ => false

/-- The goroutine's `Lock` has taken the writers' mutex and waits for the readers. -/
def waits : Thread → Bool
  | .sync .lockWait | .sync (.relockWait _ _) => true
  | _ => false

/-- The goroutine holds `r.mtx` for reading. -/
def reads : Thread → Bool
  | .forward _ .check | .forward _ .call | .forward _ .runlock => true
  | _ => false

/-- For the `Sync` call that owns the session, the `r.syncer` and `Syncing` it has left
behind at this point of its code. -/
def session : Thread → Option (Option SyncerId × Nat)
  | .sync .setSyncing => some (none, 0)
  | .sync .install => some (none, 1)
  | .sync (.unlockInstalled id) | .sync (.hook id) | .sync (.callSyncAny id)
  | .sync (.syncAny id _) | .sync (.relock id _) | .sync (.relockWait id _)
  | .sync (.clear id _) => some (some id, 1)
  | .sync (.resetSyncing _ _) => some (none, 1)
  | .sync (.unlockCleared _ _) => some (none, 0)
  | _ => none

/-- A `Sync` call between its installing and its clearing critical sections, with the
syncer it installed. -/
def inSession : Thread → Option SyncerId
  | .sync (.hook id) | .sync (.callSyncAny id) | .sync (.syncAny id _)
  | .sync (.relock id _) | .sync (.relockWait id _) => some id
  | _ => none

/-- An owner whose session has left `r.syncer` nil is inside a critical section. -/
theorem writes_of_session_none {th : Thread} {g : Nat} (h : th.session = some (none, g)) :
    th.writes = true := by
  rcases th with _ | pc | _ | _ | _ <;> (try cases pc) <;> simp_all [session, writes]

/-- Outside the critical sections, the owner's session is exactly the span `inSession`
names, with its syncer installed and the gauge at 1. -/
theorem session_of_not_writes {th : Thread} {p : Option SyncerId × Nat}
    (h : th.session = some p) (free : th.writes = false) :
    ∃ id, th.inSession = some id ∧ p = (some id, 1) := by
  rcases th with _ | pc | _ | _ | _ <;> (try cases pc) <;> simp_all [session, writes, inSession]

theorem session_of_inSession {th : Thread} {id : SyncerId} (h : th.inSession = some id) :
    th.session = some (some id, 1) := by
  rcases th with _ | pc | _ | _ | _ <;> (try cases pc) <;> simp_all [session, inSession]

end Thread

theorem Call.start_fresh (c : Call) :
    c.start.writes = false ∧ c.start.waits = false ∧ c.start.reads = false ∧
      c.start.session = none ∧
      c.start ≠ .panicked ∧ (∀ id s, c.start ≠ .sync (.syncAny id s)) ∧
      ∀ event, c.start ≠ .forward event .call := by
  rcases c with _ | _ | _ | (_ | _ | _ | _ | _ | _ | _) <;>
    simp [Call.start, Thread.addPeer, Thread.removePeer, Thread.receive, Thread.writes,
      Thread.waits, Thread.reads, Thread.session]

/-- What the invariant asks of goroutine `t` in state `th`. -/
structure ThreadOK (r : Reactor) (t : ThreadId) (th : Thread) : Prop where
  writer : r.mtx.writer = some t ↔ th.writes = true
  pending : r.mtx.pending = some t ↔ th.waits = true
  reader : t ∈ r.mtx.readers ↔ th.reads = true
  owner : r.owner = some t ↔ th.session.isSome = true
  session : r.owner = some t → th.session = some (r.syncer, r.syncing)
  syncAny : ∀ id s, th = .sync (.syncAny id s) → s = id
  call : ∀ event, th = .forward event .call → r.syncer.isSome = true
  not_panicked : th ≠ .panicked

/-- The invariant of every reachable state. -/
structure Inv (r : Reactor) : Prop where
  thread : ∀ t, ThreadOK r t (r.threads t)
  nodup : r.mtx.readers.Nodup
  exclusive : r.mtx.writer = none ∨ r.mtx.readers = []
  single : r.mtx.writer = none ∨ r.mtx.pending = none
  vacant : r.owner = none → r.syncer = none ∧ r.syncing = 0
  syncer_fresh : ∀ s, r.syncer = some s → s < r.fresh ∧ s ∉ r.cleared
  cleared_lt : ∀ s ∈ r.cleared, s < r.fresh

theorem ThreadOK.setThread {r : Reactor} {t u : ThreadId} {th th' : Thread} :
    ThreadOK (r.setThread u th') t th ↔ ThreadOK r t th :=
  ⟨fun ⟨a, b, c, d, e, f, g, h⟩ => ⟨a, b, c, d, e, f, g, h⟩,
    fun ⟨a, b, c, d, e, f, g, h⟩ => ⟨a, b, c, d, e, f, g, h⟩⟩

theorem ThreadOK.frame {r r' : Reactor} {u : ThreadId} {th : Thread} (ok : ThreadOK r u th)
    (writer : r'.mtx.writer = some u ↔ r.mtx.writer = some u)
    (pending : r'.mtx.pending = some u ↔ r.mtx.pending = some u)
    (reader : u ∈ r'.mtx.readers ↔ u ∈ r.mtx.readers)
    (owner : r'.owner = some u ↔ r.owner = some u)
    (session : r.owner = some u → r'.syncer = r.syncer ∧ r'.syncing = r.syncing)
    (call : th.reads = true → r.syncer.isSome = true → r'.syncer.isSome = true) :
    ThreadOK r' u th where
  writer := writer.trans ok.writer
  pending := pending.trans ok.pending
  reader := reader.trans ok.reader
  owner := owner.trans ok.owner
  session hu := by
    obtain ⟨syncer, syncing⟩ := session (owner.mp hu)
    rw [syncer, syncing]
    exact ok.session (owner.mp hu)
  syncAny := ok.syncAny
  call event hth := call (by subst hth; rfl) (ok.call event hth)
  not_panicked := ok.not_panicked

theorem ThreadOK.left {r : Reactor} {t : ThreadId} {th : Thread} (ok : ThreadOK r t th)
    {p : Option SyncerId × Nat} (h : th.session = some p) : r.syncer = p.1 ∧ r.syncing = p.2 := by
  have := ok.session (ok.owner.mpr (by simp [h]))
  rw [h] at this
  cases this
  exact ⟨rfl, rfl⟩

theorem Inv.update {r r' : Reactor} (t : ThreadId) (th' : Thread)
    (threads : r'.threads = r.threads) (self : ThreadOK r' t th')
    (others : ∀ u, u ≠ t → ThreadOK r' u (r.threads u))
    (nodup : r'.mtx.readers.Nodup) (exclusive : r'.mtx.writer = none ∨ r'.mtx.readers = [])
    (single : r'.mtx.writer = none ∨ r'.mtx.pending = none)
    (vacant : r'.owner = none → r'.syncer = none ∧ r'.syncing = 0)
    (syncer_fresh : ∀ s, r'.syncer = some s → s < r'.fresh ∧ s ∉ r'.cleared)
    (cleared_lt : ∀ s ∈ r'.cleared, s < r'.fresh) :
    Inv (r'.setThread t th') where
  thread := by
    simp only [Reactor.setThread_threads, ThreadOK.setThread, threads]
    exact (Function.forall_update_iff _ (fun u th => ThreadOK r' u th)).mpr ⟨self, others⟩
  nodup := nodup
  exclusive := exclusive
  single := single
  vacant := vacant
  syncer_fresh := syncer_fresh
  cleared_lt := cleared_lt

theorem Inv.init : Inv Reactor.init where
  thread _ := ⟨by simp [Reactor.init, Thread.writes], by simp [Reactor.init, Thread.waits],
    by simp [Reactor.init, Thread.reads],
    by simp [Reactor.init, Thread.session], by simp [Reactor.init],
    by simp [Reactor.init], by simp [Reactor.init], by simp [Reactor.init]⟩
  nodup := List.nodup_nil
  exclusive := .inl rfl
  single := .inl rfl
  vacant _ := ⟨rfl, rfl⟩
  syncer_fresh := by simp [Reactor.init]
  cleared_lt := by simp [Reactor.init]

namespace Inv

variable {r : Reactor} {t u : ThreadId}

theorem not_writes (inv : Inv r) (writer : r.mtx.writer = some t) (hu : u ≠ t) :
    (r.threads u).writes = false :=
  Bool.eq_false_iff.mpr fun h =>
    hu (Option.some_injective _ (((inv.thread u).writer.mpr h).symm.trans writer))

theorem not_reads (inv : Inv r) (writer : r.mtx.writer = some t) (u : ThreadId) :
    (r.threads u).reads = false := by
  have empty : r.mtx.readers = [] := inv.exclusive.resolve_left (by simp [writer])
  have := (inv.thread u).reader
  simp only [empty, List.not_mem_nil, false_iff] at this
  simpa using this

/-- A `Sync` call that finds no syncer finds no session either. -/
theorem owner_of_check (inv : Inv r) (ht : r.threads t = .sync .check)
    (vacant : r.syncer = none) : r.owner = none := by
  cases ho : r.owner with
  | none => rfl
  | some u =>
    have held : r.mtx.writer = some t := (inv.thread t).writer.mpr (by simp [ht, Thread.writes])
    have hs := (inv.thread u).session ho
    rw [vacant] at hs
    by_cases hu : u = t
    · subst hu
      simp [ht, Thread.session] at hs
    · have := Thread.writes_of_session_none hs
      simp [inv.not_writes held hu] at this

theorem setThread (inv : Inv r) {th : Thread} (self : ThreadOK r t th) :
    Inv (r.setThread t th) :=
  Inv.update t th rfl self (fun u _ => inv.thread u) inv.nodup inv.exclusive inv.single inv.vacant
    inv.syncer_fresh inv.cleared_lt

theorem move (inv : Inv r) {th th' : Thread} (ht : r.threads t = th)
    (writes : th'.writes = th.writes) (waits : th'.waits = th.waits) (reads : th'.reads = th.reads)
    (session : th'.session = th.session) (syncAny : ∀ id s, th' = .sync (.syncAny id s) → s = id)
    (call : ∀ event, th' = .forward event .call → r.syncer.isSome = true)
    (alive : th' ≠ .panicked) : Inv (r.setThread t th') :=
  have ok := ht ▸ inv.thread t
  inv.setThread ⟨writes ▸ ok.writer, waits ▸ ok.pending, reads ▸ ok.reader, session ▸ ok.owner,
    session ▸ ok.session, syncAny, call, alive⟩

theorem mutex {m : RWMutex} {th : Thread} (inv : Inv r) (self : ThreadOK { r with mtx := m } t th)
    (others : ∀ u, u ≠ t → (m.writer = some u ↔ r.mtx.writer = some u) ∧
      (m.pending = some u ↔ r.mtx.pending = some u) ∧ (u ∈ m.readers ↔ u ∈ r.mtx.readers))
    (nodup : m.readers.Nodup) (exclusive : m.writer = none ∨ m.readers = [])
    (single : m.writer = none ∨ m.pending = none) : Inv ({ r with mtx := m }.setThread t th) :=
  Inv.update t th rfl self (fun u hu => (inv.thread u).frame (others u hu).1 (others u hu).2.1
    (others u hu).2.2 Iff.rfl (fun _ => ⟨rfl, rfl⟩) (fun _ h => h)) nodup exclusive single
    inv.vacant inv.syncer_fresh inv.cleared_lt

theorem runSync {r' : Reactor} {pc : SyncPc} (inv : Inv r) (ht : r.threads t = .sync pc)
    (step : r.runSync t pc = some r') : Inv r' := by
  have ok := inv.thread t
  rw [ht] at ok
  have writer := ok.writer
  have pending := ok.pending
  have reader := ok.reader
  have owner := ok.owner
  have session := ok.session
  cases pc with
  | lock | relock id result =>
    obtain ⟨m, lock, rfl⟩ := Option.map_eq_some'.mp step
    simp only [RWMutex.lock] at lock
    split at lock <;> cases lock
    rename_i noWriter noPending
    refine inv.mutex ⟨?_, ?_, ?_, ?_, ?_, ?_, ?_, ?_⟩
      (fun u hu => ⟨Iff.rfl, by simp [noPending, Ne.symm hu], Iff.rfl⟩) inv.nodup inv.exclusive
      (.inl noWriter) <;>
      simp_all [Thread.writes, Thread.waits, Thread.reads, Thread.session]
  | lockWait | relockWait id result =>
    obtain ⟨m, await, rfl⟩ := Option.map_eq_some'.mp step
    simp only [RWMutex.awaitReaders] at await
    split at await <;> cases await
    rename_i empty
    have waiting : r.mtx.pending = some t := pending.mpr rfl
    have noWriter : r.mtx.writer = none := inv.single.resolve_right (by simp [waiting])
    refine inv.mutex ⟨?_, ?_, ?_, ?_, ?_, ?_, ?_, ?_⟩ (fun u hu => ⟨by simp [noWriter, Ne.symm hu],
      by simp [waiting, Ne.symm hu], Iff.rfl⟩) inv.nodup (.inr empty) (.inr rfl) <;>
      simp_all [Thread.writes, Thread.waits, Thread.reads, Thread.session]
  | unlockBusy | unlockInstalled id =>
    cases step
    have held : r.mtx.writer = some t := writer.mpr rfl
    refine inv.mutex ⟨?_, ?_, ?_, ?_, ?_, ?_, ?_, ?_⟩
      (fun u hu => ⟨by simp [RWMutex.unlock, held, Ne.symm hu], Iff.rfl, Iff.rfl⟩) inv.nodup
      (.inl rfl) (.inl rfl) <;>
      simp_all [RWMutex.unlock, Thread.writes, Thread.waits, Thread.reads, Thread.session]
  | check =>
    simp only [Reactor.runSync] at step
    split at step <;> cases step
    · exact inv.move ht rfl rfl rfl rfl (by simp) (by simp) (by simp)
    · rename_i vacantSyncer
      have noOwner := inv.owner_of_check ht vacantSyncer
      refine Inv.update t _ rfl ⟨?_, ?_, ?_, ?_, ?_, ?_, ?_, ?_⟩ (fun u hu => (inv.thread u).frame
        Iff.rfl Iff.rfl Iff.rfl (by simp [noOwner, Ne.symm hu]) (by simp [noOwner]) (fun _ h => h))
        inv.nodup inv.exclusive inv.single (by simp) inv.syncer_fresh inv.cleared_lt <;>
        simp_all [Thread.writes, Thread.waits, Thread.reads, Thread.session, inv.vacant noOwner]
  | setSyncing =>
    cases step
    have mine : r.owner = some t := owner.mpr rfl
    refine Inv.update t _ rfl ⟨?_, ?_, ?_, ?_, ?_, ?_, ?_, ?_⟩ (fun u hu => (inv.thread u).frame
      Iff.rfl Iff.rfl Iff.rfl Iff.rfl (by simp [mine, Ne.symm hu]) (fun _ h => h))
      inv.nodup inv.exclusive inv.single (by simp [mine]) inv.syncer_fresh inv.cleared_lt <;>
      simp_all [Thread.writes, Thread.waits, Thread.reads, Thread.session]
  | install =>
    cases step
    have mine : r.owner = some t := owner.mpr rfl
    obtain ⟨noSyncer, one⟩ : r.syncer = none ∧ r.syncing = 1 := ok.left rfl
    refine Inv.update t _ rfl ⟨?_, ?_, ?_, ?_, ?_, ?_, ?_, ?_⟩ (fun u hu => (inv.thread u).frame
      Iff.rfl Iff.rfl Iff.rfl Iff.rfl (by simp [mine, Ne.symm hu]) (fun _ _ => rfl))
      inv.nodup inv.exclusive inv.single (by simp [mine]) ?_ ?_
    all_goals simp_all [Thread.writes, Thread.waits, Thread.reads, Thread.session]
    · exact fun h => by simpa using inv.cleared_lt _ h
    · exact fun s hs => Nat.lt_succ_of_lt (inv.cleared_lt s hs)
  | hook id =>
    cases step
    exact inv.move ht rfl rfl rfl rfl (by simp) (by simp) (by simp)
  | callSyncAny id =>
    have installed : r.syncer = some id := (ok.left (p := (some id, 1)) rfl).1
    simp only [Reactor.runSync, installed] at step
    cases step
    exact inv.move ht rfl rfl rfl rfl (by simp) (by simp) (by simp)
  | syncAny id s => cases step
  | clear id result =>
    cases step
    have held : r.mtx.writer = some t := writer.mpr rfl
    have mine : r.owner = some t := owner.mpr rfl
    have installed : r.syncer = some id := (ok.left (p := (some id, 1)) rfl).1
    refine Inv.update t _ rfl ⟨?_, ?_, ?_, ?_, ?_, ?_, ?_, ?_⟩ (fun u hu => (inv.thread u).frame
      Iff.rfl Iff.rfl Iff.rfl Iff.rfl (by simp [mine, Ne.symm hu])
      (fun h => by simp [inv.not_reads held u] at h))
      inv.nodup inv.exclusive inv.single (by simp [mine]) (by simp) ?_
    all_goals simp_all [Thread.writes, Thread.waits, Thread.reads, Thread.session]
    exact ⟨(inv.syncer_fresh id installed).1, inv.cleared_lt⟩
  | resetSyncing id result =>
    cases step
    have mine : r.owner = some t := owner.mpr rfl
    refine Inv.update t _ rfl ⟨?_, ?_, ?_, ?_, ?_, ?_, ?_, ?_⟩ (fun u hu => (inv.thread u).frame
      Iff.rfl Iff.rfl Iff.rfl Iff.rfl (by simp [mine, Ne.symm hu]) (fun _ h => h))
      inv.nodup inv.exclusive inv.single (by simp [mine]) inv.syncer_fresh inv.cleared_lt <;>
      simp_all [Thread.writes, Thread.waits, Thread.reads, Thread.session]
  | unlockCleared id result =>
    cases step
    have held : r.mtx.writer = some t := writer.mpr rfl
    have mine : r.owner = some t := owner.mpr rfl
    obtain ⟨noSyncer, idle⟩ : r.syncer = none ∧ r.syncing = 0 := ok.left rfl
    refine Inv.update t _ rfl ⟨?_, ?_, ?_, ?_, ?_, ?_, ?_, ?_⟩ (fun u hu => (inv.thread u).frame
      (by simp [RWMutex.unlock, held, Ne.symm hu]) Iff.rfl Iff.rfl (by simp [mine, Ne.symm hu])
      (fun _ => ⟨rfl, rfl⟩) (fun _ h => h)) inv.nodup (.inl rfl) (.inl rfl)
      (fun _ => ⟨noSyncer, idle⟩) inv.syncer_fresh inv.cleared_lt <;>
      simp_all [RWMutex.unlock, Thread.writes, Thread.waits, Thread.reads, Thread.session]
  | returned result => cases step

theorem runForward {r' : Reactor} {event : Event} {pc : ForwardPc} (inv : Inv r)
    (ht : r.threads t = .forward event pc) (step : r.runForward t event pc = some r') :
    Inv r' := by
  have ok := inv.thread t
  rw [ht] at ok
  have writer := ok.writer
  have pending := ok.pending
  have reader := ok.reader
  have owner := ok.owner
  cases pc with
  | rlock =>
    obtain ⟨m, rlock, rfl⟩ := Option.map_eq_some'.mp step
    simp only [RWMutex.rlock] at rlock
    split at rlock <;> cases rlock
    rename_i noWriter _
    have fresh : t ∉ r.mtx.readers := by simpa [Thread.reads] using reader
    refine inv.mutex ⟨?_, ?_, ?_, ?_, ?_, ?_, ?_, ?_⟩ (fun u hu => ⟨Iff.rfl, Iff.rfl, by simp [hu]⟩)
      (List.nodup_cons.mpr ⟨fresh, inv.nodup⟩) (.inl noWriter) (.inl noWriter) <;>
      simp_all [Thread.writes, Thread.waits, Thread.reads, Thread.session]
  | check =>
    simp only [Reactor.runForward] at step
    split at step <;> cases step <;>
      exact inv.move ht rfl rfl rfl rfl (by simp) (by simp_all) (by simp)
  | call =>
    have live := ok.call event rfl
    simp only [Reactor.runForward] at step
    split at step <;> cases step
    · exact Inv.update t _ rfl ⟨by simpa [Thread.writes] using writer,
        by simpa [Thread.waits] using pending, by simpa [Thread.reads] using reader,
        by simpa [Thread.session] using owner, by simp_all [Thread.session], by simp, by simp,
        by simp⟩ (fun u _ => (inv.thread u).frame Iff.rfl Iff.rfl Iff.rfl Iff.rfl
        (fun _ => ⟨rfl, rfl⟩) (fun _ h => h)) inv.nodup inv.exclusive inv.single inv.vacant
        inv.syncer_fresh inv.cleared_lt
    · simp_all
  | runlock =>
    cases step
    refine inv.mutex ⟨?_, ?_, ?_, ?_, ?_, ?_, ?_, ?_⟩ (fun u hu => ⟨Iff.rfl, Iff.rfl,
      by simp [RWMutex.runlock, inv.nodup.mem_erase_iff, hu]⟩) (inv.nodup.erase t)
      (inv.exclusive.imp_right fun empty => by simp [RWMutex.runlock, empty]) inv.single <;>
      simp_all [RWMutex.runlock, Thread.writes, Thread.waits, Thread.reads, Thread.session,
        inv.nodup.mem_erase_iff]
  | returned => cases step

/-- Every step of every goroutine keeps the invariant. -/
theorem step {r' : Reactor} {a : Action} (inv : Inv r) (step : r.step a = some r') : Inv r' := by
  cases a with
  | call t c =>
    simp only [Reactor.step] at step
    split at step <;> cases step
    rename_i idle
    obtain ⟨writes, waits, reads, session, alive, syncAny, call⟩ := c.start_fresh
    exact inv.move idle writes waits reads session (fun _ _ h => absurd h (syncAny _ _))
      (fun _ h => absurd h (call _)) alive
  | run t =>
    simp only [Reactor.step] at step
    split at step
    · exact inv.runSync ‹_› step
    · exact inv.runForward ‹_› step
    · cases step
  | syncAnyReturns t result =>
    simp only [Reactor.step] at step
    split at step <;> cases step
    rename_i running
    exact inv.move running rfl rfl rfl rfl (by simp) (by simp) (by simp)

end Inv

/-- The invariant holds in every state some interleaving reaches. -/
theorem Reactor.Reachable.inv {r : Reactor} (reach : r.Reachable) : Inv r := by
  induction reach with
  | init => exact Inv.init
  | step _ _ step ih => exact ih.step step

end CelestiaCore.StateSync
