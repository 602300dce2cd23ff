import CelestiaCore.StateSync.Messages
import Mathlib.Logic.Function.Basic

set_option autoImplicit false

/- The concurrent part of the state sync reactor (statesync/reactor.go). `Sync` installs a
syncer under `r.mtx`, runs `SyncAny` on it and clears it again, while peer goroutines call
`Receive`, `AddPeer` and `RemovePeer`, which forward to `r.syncer` under the read lock.
Each goroutine is a thread at a program point, and a step runs one statement of one thread,
so every interleaving of any number of calls is a run. `SyncAny` (statesync/syncer.go, not
under src/) runs as one step that may return any result. Ghost fields record who holds the
mutex, which call owns the session, the syncers allocated and cleared, and every call
forwarded to a syncer. -/

namespace CelestiaCore.StateSync

/-- A goroutine. -/
abbrev ThreadId := Nat

/-- A `*syncer` that `newSyncer` allocated; every call allocates a fresh one. -/
abbrev SyncerId := Nat

/-- The `error` `Sync` returns, `none` for nil. The state and commit `SyncAny` returns pass
through the reactor untouched, so the model does not carry them. -/
abbrev SyncResult := Option String

/-- `cmtsync.RWMutex`, which is Go's `sync.RWMutex`, with who holds it as a ghost: the writer,
the goroutine whose `Lock` has taken the writers' mutex and waits for the readers in to leave,
and the readers. As in Go, a pending `Lock` holds off new readers. Go lets the readers that
blocked behind a writer in together at `Unlock`, ahead of the next `Lock`; here they race it. -/
structure RWMutex where
  writer : Option ThreadId
  pending : Option ThreadId
  readers : List ThreadId
  deriving DecidableEq, Repr

namespace RWMutex

/-- The first half of `Lock`: it blocks while another `Lock` holds the writers' mutex, then
announces itself to the readers. -/
def lock (m : RWMutex) (t : ThreadId) : Option RWMutex :=
  match m.writer, m.pending with
  | none, none => some { m with pending := some t }
  | _, _ => none

/-- The second half of `Lock`: it waits for the readers in to leave. -/
def awaitReaders (m : RWMutex) (t : ThreadId) : Option RWMutex :=
  match m.readers with
  | [] => some { m with writer := some t, pending := none }
  | _ => none

def unlock (m : RWMutex) : RWMutex := { m with writer := none }

/-- `RLock` blocks while a writer holds the mutex or a `Lock` waits for it. -/
def rlock (m : RWMutex) (t : ThreadId) : Option RWMutex :=
  match m.writer, m.pending with
  | none, none => some { m with readers := t :: m.readers }
  | _, _ => none

def runlock (m : RWMutex) (t : ThreadId) : RWMutex := { m with readers := m.readers.erase t }

end RWMutex

/-- Where a `Sync` call is. `id` is the syncer the call installed (ghost). -/
inductive SyncPc
  /-- Line 266: `r.mtx.Lock()` takes the writers' mutex. -/
  | lock
  /-- Line 266: `r.mtx.Lock()` waits for the readers. -/
  | lockWait
  /-- Line 267: `if r.syncer != nil`. -/
  | check
  /-- Line 268: `r.mtx.Unlock()`, then the error is returned. -/
  | unlockBusy
  /-- Line 271: `r.metrics.Syncing.Set(1)`. -/
  | setSyncing
  /-- Line 272: `r.syncer = newSyncer(...)`. -/
  | install
  /-- Line 273: `r.mtx.Unlock()`. -/
  | unlockInstalled (id : SyncerId)
  /-- Line 285: `hook()` broadcasts a `SnapshotsRequest`; no reactor field changes. -/
  | hook (id : SyncerId)
  /-- Line 287: `r.syncer.SyncAny(...)` reads `r.syncer` without the lock. -/
  | callSyncAny (id : SyncerId)
  /-- `SyncAny` runs on syncer `s`. -/
  | syncAny (id s : SyncerId)
  /-- Line 289: `r.mtx.Lock()` once `SyncAny` returned `result`. -/
  | relock (id : SyncerId) (result : SyncResult)
  /-- Line 289: `r.mtx.Lock()` waits for the readers. -/
  | relockWait (id : SyncerId) (result : SyncResult)
  /-- Line 290: `r.syncer = nil`. -/
  | clear (id : SyncerId) (result : SyncResult)
  /-- Line 291: `r.metrics.Syncing.Set(0)`. -/
  | resetSyncing (id : SyncerId) (result : SyncResult)
  /-- Line 292: `r.mtx.Unlock()`. -/
  | unlockCleared (id : SyncerId) (result : SyncResult)
  | returned (result : SyncResult)
  deriving DecidableEq, Repr

/-- Where a forwarding call is: `AddPeer`, `RemovePeer`, and `Receive` with a
`SnapshotsResponse` or a `ChunkResponse` share this code. -/
inductive ForwardPc
  /-- `r.mtx.RLock()`. -/
  | rlock
  /-- `if r.syncer == nil`: return. -/
  | check
  /-- `r.syncer.AddSnapshot(...)` and its kin read `r.syncer` again and call it. -/
  | call
  /-- The deferred `r.mtx.RUnlock()`. -/
  | runlock
  | returned
  deriving DecidableEq, Repr

/-- A goroutine in the reactor's code. -/
inductive Thread
  | idle
  | sync (pc : SyncPc)
  | forward (event : Event) (pc : ForwardPc)
  /-- A `Receive` whose route touches neither the mutex nor the syncer, done. -/
  | served (route : Route)
  /-- A method was called on a nil `*syncer`. -/
  | panicked
  deriving DecidableEq, Repr

/-- `AddPeer(peer)`. -/
def Thread.addPeer (peer : PeerID) : Thread := .forward (.addPeer peer) .rlock

/-- `RemovePeer(peer)`. -/
def Thread.removePeer (peer : PeerID) : Thread := .forward (.removePeer peer) .rlock

/-- `Receive` after its dispatch: a response is forwarded, any other route is served
without the mutex. -/
def Thread.receive : Route → Thread
  | .forward event => .forward event .rlock
  | route => .served route

/-- A call into the reactor. -/
inductive Call
  | sync
  | addPeer (peer : PeerID)
  | removePeer (peer : PeerID)
  | receive (route : Route)
  deriving DecidableEq, Repr

def Call.start : Call → Thread
  | .sync => .sync .lock
  | .addPeer peer => .addPeer peer
  | .removePeer peer => .removePeer peer
  | .receive route => .receive route

/-- The reactor's fields that `Sync` and the forwarding calls touch, and the goroutines. -/
structure Reactor where
  mtx : RWMutex
  syncer : Option SyncerId
  /-- `metrics.Syncing`. -/
  syncing : Nat
  threads : ThreadId → Thread
  /-- Ghost: the `Sync` call that owns the session. -/
  owner : Option ThreadId
  /-- Ghost: the syncer `newSyncer` allocates next. -/
  fresh : SyncerId
  /-- Ghost: every syncer a `Sync` call has cleared. -/
  cleared : List SyncerId
  /-- Ghost: every call forwarded to a syncer, in order. -/
  delivered : List (SyncerId × Event)

/-- What a step can do: a goroutine calls in, runs its next statement, or gets `SyncAny`'s
result. -/
inductive Action
  | call (t : ThreadId) (c : Call)
  | run (t : ThreadId)
  | syncAnyReturns (t : ThreadId) (result : SyncResult)
  deriving DecidableEq, Repr

namespace Reactor

def init : Reactor where
  mtx := ⟨none, none, []⟩
  syncer := none
  syncing := 0
  threads := fun _ => .idle
  owner := none
  fresh := 0
  cleared := []
  delivered := []

def setThread (r : Reactor) (t : ThreadId) (th : Thread) : Reactor :=
  { r with threads := Function.update r.threads t th }

@[simp] theorem setThread_threads (r : Reactor) (t : ThreadId) (th : Thread) :
    (r.setThread t th).threads = Function.update r.threads t th := rfl

@[simp] theorem setThread_mtx (r : Reactor) (t : ThreadId) (th : Thread) :
    (r.setThread t th).mtx = r.mtx := rfl

@[simp] theorem setThread_syncer (r : Reactor) (t : ThreadId) (th : Thread) :
    (r.setThread t th).syncer = r.syncer := rfl

@[simp] theorem setThread_syncing (r : Reactor) (t : ThreadId) (th : Thread) :
    (r.setThread t th).syncing = r.syncing := rfl

@[simp] theorem setThread_owner (r : Reactor) (t : ThreadId) (th : Thread) :
    (r.setThread t th).owner = r.owner := rfl

@[simp] theorem setThread_fresh (r : Reactor) (t : ThreadId) (th : Thread) :
    (r.setThread t th).fresh = r.fresh := rfl

@[simp] theorem setThread_cleared (r : Reactor) (t : ThreadId) (th : Thread) :
    (r.setThread t th).cleared = r.cleared := rfl

@[simp] theorem setThread_delivered (r : Reactor) (t : ThreadId) (th : Thread) :
    (r.setThread t th).delivered = r.delivered := rfl

/-- One statement of `Sync` (lines 265-294) run by goroutine `t`. -/
def runSync (r : Reactor) (t : ThreadId) : SyncPc → Option Reactor
  | .lock => (r.mtx.lock t).map fun m => { r with mtx := m }.setThread t (.sync .lockWait)
  | .lockWait =>
    (r.mtx.awaitReaders t).map fun m => { r with mtx := m }.setThread t (.sync .check)
  | .check =>
    match r.syncer with
    | some _ => some (r.setThread t (.sync .unlockBusy))
    | none => some ({ r with owner := some t }.setThread t (.sync .setSyncing))
  | .unlockBusy =>
    some ({ r with mtx := r.mtx.unlock }.setThread t
      (.sync (.returned (some "a state sync is already in progress"))))
  | .setSyncing => some ({ r with syncing := 1 }.setThread t (.sync .install))
  | .install =>
    some ({ r with syncer := some r.fresh, fresh := r.fresh + 1 }.setThread t
      (.sync (.unlockInstalled r.fresh)))
  | .unlockInstalled id => some ({ r with mtx := r.mtx.unlock }.setThread t (.sync (.hook id)))
  | .hook id => some (r.setThread t (.sync (.callSyncAny id)))
  | .callSyncAny id =>
    match r.syncer with
    | some s => some (r.setThread t (.sync (.syncAny id s)))
    | none => some (r.setThread t .panicked)
  | .syncAny _ _ => none
  | .relock id result =>
    (r.mtx.lock t).map fun m => { r with mtx := m }.setThread t (.sync (.relockWait id result))
  | .relockWait id result =>
    (r.mtx.awaitReaders t).map fun m => { r with mtx := m }.setThread t (.sync (.clear id result))
  | .clear id result =>
    some ({ r with syncer := none, cleared := r.syncer.toList ++ r.cleared }.setThread t
      (.sync (.resetSyncing id result)))
  | .resetSyncing id result =>
    some ({ r with syncing := 0 }.setThread t (.sync (.unlockCleared id result)))
  | .unlockCleared _ result =>
    some ({ r with mtx := r.mtx.unlock, owner := none }.setThread t (.sync (.returned result)))
  | .returned _ => none

/-- One statement of a forwarding call run by goroutine `t`: the code `AddPeer`,
`RemovePeer` and the two response cases of `Receive` share, for the call `event`. -/
def runForward (r : Reactor) (t : ThreadId) (event : Event) : ForwardPc → Option Reactor
  | .rlock => (r.mtx.rlock t).map fun m => { r with mtx := m }.setThread t (.forward event .check)
  | .check =>
    match r.syncer with
    | none => some (r.setThread t (.forward event .runlock))
    | some _ => some (r.setThread t (.forward event .call))
  | .call =>
    match r.syncer with
    | some s =>
      some ({ r with delivered := r.delivered ++ [(s, event)] }.setThread t
        (.forward event .runlock))
    | none => some (r.setThread t .panicked)
  | .runlock => some ({ r with mtx := r.mtx.runlock t }.setThread t (.forward event .returned))
  | .returned => none

/-- One step; `none` when the action is not enabled (a blocked lock, or nothing to run). -/
def step (r : Reactor) : Action → Option Reactor
  | .call t c =>
    match r.threads t with
    | .idle => some (r.setThread t c.start)
    | _ => none
  | .run t =>
    match r.threads t with
    | .sync pc => r.runSync t pc
    | .forward event pc => r.runForward t event pc
    | _ => none
  | .syncAnyReturns t result =>
    match r.threads t with
    | .sync (.syncAny id _) => some (r.setThread t (.sync (.relock id result)))
    | _ => none

/-- The states some interleaving reaches from the reactor `NewReactor` built. -/
inductive Reachable : Reactor → Prop
  | init : Reachable init
  | step {r r' : Reactor} (a : Action) : Reachable r → r.step a = some r' → Reachable r'

end Reactor

end CelestiaCore.StateSync
