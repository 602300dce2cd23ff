import CelestiaCore.StateSync.Messages
import Mathlib.Data.List.Perm.Basic

set_option autoImplicit false

/- What `Receive` does with every envelope before it takes a lock, and what `recentSnapshots`
returns, for every snapshot list the application can return and every order `sort.Slice` can
leave: the first `recentSnapshots` of a descending order, copied field for field. Its argument
`n` plays no part: the loop's bound is the constant. -/

namespace CelestiaCore.StateSync

/-- A stopped `Receive` drops every envelope; a running one stops exactly the peers whose
message fails validation, and hands the syncer exactly the validated responses on their own
channel: a `SnapshotsResponse` as an offer from the envelope's source, a `ChunkResponse` as a
chunk whose sender is that source, whatever its `Missing` flag. -/
theorem receive_routes (validateMsg : Message → Except String Unit) (e : Envelope) :
    receive false validateMsg e = .dropped ∧
    (∀ err, receive true validateMsg e = .stopPeer err ↔ validateMsg e.message = .error err) ∧
    ∀ event, receive true validateMsg e = .forward event ↔ validateMsg e.message = .ok () ∧
      ((e.channelID = snapshotChannel ∧ ∃ height format chunks hash metadata,
          e.message = .snapshotsResponse height format chunks hash metadata ∧
          event = .addSnapshot e.src ⟨height, format, chunks, hash, metadata⟩) ∨
        (e.channelID = chunkChannel ∧ ∃ height format index chunk missing,
          e.message = .chunkResponse height format index chunk missing ∧
          event = .addChunk ⟨height, format, index, chunk, e.src⟩)) := by
  refine ⟨rfl, fun err => ?_, fun event => ?_⟩ <;> rcases e with ⟨src, channelID, message⟩ <;>
    simp only [receive, Bool.not_true, Bool.false_eq_true, ↓reduceIte] <;>
    split <;> rename_i valid <;> simp only [valid, reduceCtorEq, false_and, Except.error.injEq,
      Route.stopPeer.injEq, iff_false, true_and]
  all_goals split_ifs with snapshot chunk <;> (try split) <;>
    simp_all [snapshotChannel, chunkChannel, and_assoc, eq_comm]

/-- `a` may come before `b` in the order `recentSnapshots` sorts to: a higher height, or the
same height and a format at least as high. -/
def Descending (a b : Abci.Snapshot) : Prop :=
  b.height < a.height ∨ (b.height = a.height ∧ b.format ≤ a.format)

theorem descending_iff_toNat {a b : Abci.Snapshot} : Descending a b ↔
    b.height.toNat < a.height.toNat ∨
      (b.height.toNat = a.height.toNat ∧ b.format.toNat ≤ a.format.toNat) := by
  have heq : b.height = a.height ↔ b.height.toNat = a.height.toNat :=
    ⟨congrArg _, UInt64.toNat.inj⟩
  rw [Descending, heq]
  rfl

theorem snapshotLess_eq_false {a b : Abci.Snapshot} :
    snapshotLess b a = false ↔ Descending a b := by
  have heq : ∀ x y : UInt64, x = y ↔ x.toNat = y.toNat :=
    fun _ _ => ⟨congrArg _, UInt64.toNat.inj⟩
  have hlt : ∀ x y : UInt64, x < y ↔ x.toNat < y.toNat := fun _ _ => Iff.rfl
  have flt : ∀ x y : UInt32, x < y ↔ x.toNat < y.toNat := fun _ _ => Iff.rfl
  rw [descending_iff_toNat]
  simp only [snapshotLess, heq, hlt, flt, gt_iff_lt]
  split_ifs <;> simp <;> omega

theorem descending_trans {a b c : Abci.Snapshot} (ab : Descending a b) (bc : Descending b c) :
    Descending a c := by
  rw [descending_iff_toNat] at *
  omega

theorem descending_total (a b : Abci.Snapshot) : Descending a b ∨ Descending b a := by
  rw [descending_iff_toNat, descending_iff_toNat]
  omega

/-- `sort.Slice` always returns: a merge sort by `snapshotLess` is one order it may leave. -/
theorem sortSlice_exists (snapshots : List Abci.Snapshot) :
    ∃ sorted, SortSlice snapshotLess snapshots sorted := by
  let le := fun a b => !snapshotLess b a
  have le_iff : ∀ a b, le a b = true ↔ Descending a b := fun a b => by
    simp [le, ← snapshotLess_eq_false]
  refine ⟨snapshots.mergeSort le, List.mergeSort_perm _ _, ?_⟩
  refine (List.sorted_mergeSort (fun a b c hab hbc => ?_) (fun a b => ?_) snapshots).imp
    fun h => ?_
  · exact (le_iff a c).mpr (descending_trans ((le_iff a b).mp hab) ((le_iff b c).mp hbc))
  · rcases descending_total a b with h | h <;> simp [(le_iff _ _).mpr h]
  · simpa [le] using h

theorem copyRecent_eq_take (i : Nat) (snapshots : List Abci.Snapshot) :
    copyRecent i snapshots = (snapshots.take (recentSnapshots - i)).map toSnapshot := by
  induction snapshots generalizing i with
  | nil => simp [copyRecent]
  | cons s rest ih =>
    by_cases stop : i ≥ recentSnapshots
    · simp [copyRecent, stop, Nat.sub_eq_zero_of_le stop]
    · obtain ⟨k, hk⟩ : ∃ k, recentSnapshots - i = k + 1 := ⟨recentSnapshots - i - 1, by omega⟩
      have next : recentSnapshots - (i + 1) = k := by omega
      simp [copyRecent, stop, ih, hk, next]

/-- Whatever `n`, every result of `recentSnapshots(n)` on the application's list is the first
`min recentSnapshots |L|` snapshots of a descending order of `L`, copied field for field: the
chosen ones are distinct elements of `L`, in descending (height, format) order, and none of
the snapshots left out is ordered strictly above a chosen one. -/
theorem recentSnapshots_top (snapshots : List Abci.Snapshot) (n : UInt32)
    (result : Except String (List Snapshot)) (returns : RecentSnapshots (.ok snapshots) n result) :
    ∃ chosen left : List Abci.Snapshot, (chosen ++ left).Perm snapshots ∧
      result = .ok (chosen.map toSnapshot) ∧
      chosen.length = min recentSnapshots snapshots.length ∧ chosen.Pairwise Descending ∧
      ∀ x ∈ left, ∀ y ∈ chosen, snapshotLess x y = false := by
  obtain ⟨sorted, ⟨perm, ordered⟩, rfl⟩ := returns
  have split := List.take_append_drop recentSnapshots sorted
  rw [← split, List.pairwise_append] at ordered
  refine ⟨sorted.take recentSnapshots, sorted.drop recentSnapshots, split.symm ▸ perm,
    by rw [copyRecent_eq_take, Nat.sub_zero], by simp [perm.length_eq], ?_,
    fun x hx y hy => ordered.2.2 y hy x hx⟩
  exact ordered.1.imp snapshotLess_eq_false.mp

/-- `recentSnapshots(n)` always returns when the application lists its snapshots, and, whatever
`n`, what it returns is the `min recentSnapshots |L|` most recent of them: copies of distinct
elements of `L` in descending (height, format) order, none of those left out ordered strictly
above a returned one. -/
theorem recentSnapshots_returns_most_recent (snapshots : List Abci.Snapshot) (n : UInt32) :
    (∃ result, RecentSnapshots (.ok snapshots) n result) ∧
    ∀ result, RecentSnapshots (.ok snapshots) n result →
      ∃ chosen left : List Abci.Snapshot, (chosen ++ left).Perm snapshots ∧
        result = .ok (chosen.map toSnapshot) ∧
        chosen.length = min recentSnapshots snapshots.length ∧ chosen.Pairwise Descending ∧
        ∀ x ∈ left, ∀ y ∈ chosen, snapshotLess x y = false := by
  obtain ⟨sorted, sorts⟩ := sortSlice_exists snapshots
  exact ⟨⟨_, sorted, sorts, rfl⟩, recentSnapshots_top snapshots n⟩

/-- `Receive` takes the `SnapshotsRequest` branch exactly for a valid `SnapshotsRequest` on
`SnapshotChannel`, and answers it, for every order `sort.Slice` leaves, with one
`SnapshotsResponse` per snapshot `recentSnapshots(recentSnapshots)` returned, in that order,
on the same channel. -/
theorem receive_advertises_recent (validateMsg : Message → Except String Unit) (e : Envelope)
    (snapshots : List Abci.Snapshot) :
    (receive true validateMsg e = .advertise ↔
      validateMsg e.message = .ok () ∧ e.channelID = snapshotChannel ∧
        e.message = .snapshotsRequest) ∧
    ∀ result, RecentSnapshots (.ok snapshots) (UInt32.ofNat recentSnapshots) result →
      ∃ chosen left : List Abci.Snapshot, (chosen ++ left).Perm snapshots ∧
        advertise snapshotChannel result =
          chosen.map (fun s => (snapshotChannel, (toSnapshot s).toResponse)) ∧
        chosen.length = min recentSnapshots snapshots.length ∧ chosen.Pairwise Descending ∧
        ∀ x ∈ left, ∀ y ∈ chosen, snapshotLess x y = false := by
  refine ⟨?_, fun result returns => ?_⟩
  · rcases e with ⟨src, channelID, message⟩
    simp only [receive, Bool.not_true, Bool.false_eq_true, ↓reduceIte]
    split <;> rename_i valid
    · simp [valid]
    · simp only [valid, true_and]
      split_ifs with snapshot chunk <;> (try split) <;> simp_all [snapshotChannel, chunkChannel]
  · obtain ⟨chosen, left, perm, rfl, length, ordered, top⟩ :=
      recentSnapshots_top snapshots _ result returns
    exact ⟨chosen, left, perm, by simp [advertise], length, ordered, top⟩

/-- Two snapshots the application may list, at heights 1 and 2. -/
def olderSnapshot : Abci.Snapshot := ⟨1, 1, 1, [1], []⟩

def newerSnapshot : Abci.Snapshot := ⟨2, 1, 1, [2], []⟩

/-- `recentSnapshots(1)` on two snapshots returns both of them, not one: the loop is bounded by
the constant `recentSnapshots`, never by `n`. -/
theorem recentSnapshots_ignores_n :
    RecentSnapshots (.ok [olderSnapshot, newerSnapshot]) 1
      (.ok [toSnapshot newerSnapshot, toSnapshot olderSnapshot]) ∧
    ∀ result, RecentSnapshots (.ok [olderSnapshot, newerSnapshot]) 1 result →
      ∃ returned, result = .ok returned ∧ returned.length = 2 := by
  refine ⟨⟨[newerSnapshot, olderSnapshot], ⟨List.Perm.swap _ _ _, by decide⟩, rfl⟩,
    fun result returns => ?_⟩
  obtain ⟨chosen, -, -, rfl, length, -⟩ := recentSnapshots_top _ 1 result returns
  exact ⟨_, rfl, by simpa using length⟩

end CelestiaCore.StateSync
