import CelestiaCore.Types.Basic

set_option autoImplicit false

/- The wire side of the state sync reactor (statesync/reactor.go): the messages of its two
channels, the routing `Receive` does before it takes any lock, and `recentSnapshots`, which
answers a `SnapshotsRequest` from the application's own snapshots. The application, the
switch and `validateMsg` (statesync/messages.go) are not under src/; what they return is an
input of the model. -/

namespace CelestiaCore

/-- `p2p.ID`: a peer is known to the reactor by its ID. -/
abbrev PeerID := String

namespace Abci

/-- `abci.Snapshot` (proto/tendermint/abci/types.proto). -/
structure Snapshot where
  height : UInt64
  format : UInt32
  chunks : UInt32
  hash : Bytes
  metadata : Bytes
  deriving DecidableEq, Repr

end Abci

namespace StateSync

/-- `SnapshotChannel` exchanges snapshot metadata. -/
def snapshotChannel : UInt8 := 0x60

/-- `ChunkChannel` exchanges chunk contents. -/
def chunkChannel : UInt8 := 0x61

/-- `recentSnapshots`: the number of recent snapshots to send and receive per peer. -/
def recentSnapshots : Nat := 10

/-- The reactor's `snapshot`, with the fields `Receive` and `recentSnapshots` fill in. -/
structure Snapshot where
  height : UInt64
  format : UInt32
  chunks : UInt32
  hash : Bytes
  metadata : Bytes
  deriving DecidableEq, Repr

/-- The reactor's `chunk`, as `Receive` builds it from a `ChunkResponse`. -/
structure Chunk where
  height : UInt64
  format : UInt32
  index : UInt32
  chunk : Bytes
  sender : PeerID
  deriving DecidableEq, Repr

/-- The four messages of `ssproto.Message`, with the fields the reactor reads. -/
inductive Message
  | snapshotsRequest
  | snapshotsResponse (height : UInt64) (format : UInt32) (chunks : UInt32) (hash : Bytes)
      (metadata : Bytes)
  | chunkRequest (height : UInt64) (format : UInt32) (index : UInt32)
  | chunkResponse (height : UInt64) (format : UInt32) (index : UInt32) (chunk : Bytes)
      (missing : Bool)
  deriving DecidableEq, Repr

/-- `p2p.Envelope` as `Receive` gets it. -/
structure Envelope where
  src : PeerID
  channelID : UInt8
  message : Message
  deriving DecidableEq, Repr

/-- A call the reactor forwards to the running syncer. -/
inductive Event
  | addSnapshot (peer : PeerID) (snapshot : Snapshot)
  | addChunk (chunk : Chunk)
  | addPeer (peer : PeerID)
  | removePeer (peer : PeerID)
  deriving DecidableEq, Repr

/-- What `Receive` does with an envelope, decided before it takes any lock. -/
inductive Route
  /-- The reactor is not running. -/
  | dropped
  /-- `validateMsg` failed: `Switch.StopPeerForError`. -/
  | stopPeer (err : String)
  /-- A `SnapshotsRequest`: answer from `recentSnapshots`. -/
  | advertise
  /-- A response: hand it to the syncer, if a sync is in progress. -/
  | forward (event : Event)
  /-- A `ChunkRequest`: answer from the application's `LoadSnapshotChunk`. -/
  | loadChunk (height : UInt64) (format : UInt32) (index : UInt32)
  /-- A message of the other channel's kind: logged. -/
  | unknownMessage
  /-- A channel the reactor does not own: logged. -/
  | invalidChannel
  deriving DecidableEq, Repr

/-- The dispatch of `Receive` (lines 108-226): the running check, `validateMsg`, and the
switch on channel and message type. -/
def receive (running : Bool) (validateMsg : Message → Except String Unit) (e : Envelope) :
    Route :=
  if !running then .dropped else
  match validateMsg e.message with
  | .error err => .stopPeer err
  | .ok () =>
    if e.channelID = snapshotChannel then
      match e.message with
      | .snapshotsRequest => .advertise
      | .snapshotsResponse height format chunks hash metadata =>
        .forward (.addSnapshot e.src ⟨height, format, chunks, hash, metadata⟩)
      | _ => .unknownMessage
    else if e.channelID = chunkChannel then
      match e.message with
      | .chunkRequest height format index => .loadChunk height format index
      | .chunkResponse height format index chunk _ =>
        .forward (.addChunk ⟨height, format, index, chunk, e.src⟩)
      | _ => .unknownMessage
    else .invalidChannel

/-- The `SnapshotsResponse` `Receive` sends for one snapshot `recentSnapshots` returned. -/
def Snapshot.toResponse (s : Snapshot) : Message :=
  .snapshotsResponse s.height s.format s.chunks s.hash s.metadata

/-- What `Receive` sends back on `channelID` for a `SnapshotsRequest`, given what
`recentSnapshots` returned: nothing when it failed, else one response per snapshot. -/
def advertise (channelID : UInt8) : Except String (List Snapshot) → List (UInt8 × Message)
  | .error _ => []
  | .ok snapshots => snapshots.map fun s => (channelID, s.toResponse)

/-- The `ChunkResponse` `Receive` sends for a `ChunkRequest`, given what `LoadSnapshotChunk`
returned (`none` is a nil chunk): nothing when the application failed. -/
def loadChunkResponse (height : UInt64) (format : UInt32) (index : UInt32) :
    Except String (Option Bytes) → Option Message
  | .error _ => none
  | .ok chunk => some (.chunkResponse height format index (chunk.getD []) chunk.isNone)

/-! ### `recentSnapshots` -/

/-- The comparator `recentSnapshots` hands to `sort.Slice`: higher height first, then higher
format. -/
def snapshotLess (a b : Abci.Snapshot) : Bool :=
  if a.height > b.height then true
  else if a.height = b.height ∧ a.format > b.format then true
  else false

/-- What `sort.Slice` promises of the order it leaves: a permutation of its input in which no
element is `less` than one before it. The sort is not stable, so nothing more is assumed. -/
def SortSlice {α : Type} (less : α → α → Bool) (xs ys : List α) : Prop :=
  ys.Perm xs ∧ ys.Pairwise fun a b => less b a = false

/-- The field-for-field copy `recentSnapshots` appends. -/
def toSnapshot (s : Abci.Snapshot) : Snapshot :=
  ⟨s.height, s.format, s.chunks, s.hash, s.metadata⟩

/-- The copy loop of `recentSnapshots`: `i` is the range index, and the loop breaks once
`i >= recentSnapshots` (the constant, not the argument `n`). -/
def copyRecent : Nat → List Abci.Snapshot → List Snapshot
  | _, [] => []
  | i, s :: rest => if i ≥ recentSnapshots then [] else toSnapshot s :: copyRecent (i + 1) rest

/-- `Reactor.recentSnapshots(n)`: what it can return when `ListSnapshots` returned
`listSnapshots`, one result per order `sort.Slice` may leave. `n` only sizes the capacity of
the slice it appends to. -/
def RecentSnapshots (listSnapshots : Except String (List Abci.Snapshot)) (n : UInt32) :
    Except String (List Snapshot) → Prop :=
  match listSnapshots with
  | .error err => fun result => result = .error err
  | .ok snapshots => fun result =>
    ∃ sorted, SortSlice snapshotLess snapshots sorted ∧ result = .ok (copyRecent 0 sorted)

end StateSync

end CelestiaCore
