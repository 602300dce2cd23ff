import Mathlib.Data.List.Forall2

set_option autoImplicit false

/- What the block types of types/block.go share: Go's byte slices, the hash length check
`ValidateHash` (types/validation.go, not under src/), the prefixing of a nested error, the
upper-case hex that `HexBytes` prints in messages, and how `Except` threads the checks and
the conversions that stop at the first error. -/

namespace CelestiaCore

/-- Go's `[]byte`. Where a modelled function tells a nil slice from an empty one (`fillHeader`
on the header's content hashes, `Data.Hash` on its cache), the field is an `Option Bytes`,
`none` for nil. `Block.Hash` tells them apart on its memo too, which only it sets and never to
an empty slice: the memo is `Bytes`, `[]` for nil. -/
abbrev Bytes := List UInt8

@[simp] theorem exists_unit {p : Unit → Prop} : (∃ u, p u) ↔ p () :=
  ⟨fun ⟨(), h⟩ => h, fun h => ⟨(), h⟩⟩

theorem bind_eq_ok {ε α β : Type} {x : Except ε α} {f : α → Except ε β} {b : β} :
    x >>= f = .ok b ↔ ∃ a, x = .ok a ∧ f a = .ok b := by
  cases x <;> simp [bind, Except.bind]

@[simp] theorem bind_unit_eq_ok {ε β : Type} {x : Except ε Unit} {f : Unit → Except ε β} {b : β} :
    x >>= f = .ok b ↔ x = .ok () ∧ f () = .ok b := by
  cases x <;> simp [bind, Except.bind]

theorem bind_unit_eq_error {ε β : Type} {x : Except ε Unit} {f : Unit → Except ε β} {e : ε} :
    x >>= f = .error e ↔ x = .error e ∨ (x = .ok () ∧ f () = .error e) := by
  cases x <;> simp [bind, Except.bind]

@[simp] theorem pure_eq_ok {ε α : Type} {a b : α} : (pure a : Except ε α) = .ok b ↔ a = b := by
  simp [pure, Except.pure]

@[simp] theorem map_eq_ok {ε α β : Type} {x : Except ε α} {f : α → β} {b : β} :
    x.map f = .ok b ↔ ∃ a, x = .ok a ∧ f a = b := by
  cases x <;> simp [Except.map]

/-- A loop that converts each element and returns the first error: it returns `ys` exactly
when each element converts to its `ys` counterpart. -/
theorem mapM_eq_ok {ε α β : Type} {f : α → Except ε β} {xs : List α} {ys : List β} :
    xs.mapM f = .ok ys ↔ List.Forall₂ (fun x y => f x = .ok y) xs ys := by
  induction xs generalizing ys with
  | nil => simp only [List.mapM_nil, pure_eq_ok, List.forall₂_nil_left_iff, List.nil_eq]
  | cons x xs ih =>
    cases ys <;> simp only [List.mapM_cons, bind_eq_ok, pure_eq_ok, ih, List.forall₂_cons] <;>
      simp

theorem forM_eq_ok {ε α : Type} {f : α → Except ε PUnit} {xs : List α} :
    xs.forM f = .ok () ↔ ∀ x ∈ xs, f x = .ok () := by
  induction xs with
  | nil => simp [List.forM, pure, Except.pure]
  | cons x xs ih => simp [List.forM, ih]

/-- `for _, x := range xs { if err := f(x); err != nil { return err } }` fails exactly at its
first element that fails, with that element's error. -/
theorem forM_eq_error {ε α : Type} {f : α → Except ε PUnit} {xs : List α} {e : ε} :
    xs.forM f = .error e ↔
      ∃ pre x post, xs = pre ++ x :: post ∧ (∀ y ∈ pre, f y = .ok ()) ∧ f x = .error e := by
  induction xs with
  | nil => simp [List.forM, pure, Except.pure]
  | cons x xs ih =>
    simp only [List.forM, List.cons_eq_append_iff]
    cases fx : f x with
    | error err =>
      simp only [bind, Except.bind, Except.error.injEq]
      constructor
      · rintro rfl
        exact ⟨[], x, xs, .inl ⟨rfl, rfl⟩, by simp, fx⟩
      · rintro ⟨pre, y, post, ⟨rfl, same⟩ | ⟨pre', rfl, -⟩, ok, bad⟩
        · cases same
          rw [fx] at bad
          cases bad
          rfl
        · simp [fx] at ok
    | ok u =>
      simp only [bind, Except.bind, ih]
      constructor
      · rintro ⟨pre, y, post, rfl, ok, bad⟩
        exact ⟨x :: pre, y, post, .inr ⟨pre, rfl, rfl⟩, List.forall_mem_cons.mpr ⟨fx, ok⟩, bad⟩
      · rintro ⟨pre, y, post, ⟨rfl, same⟩ | ⟨pre', rfl, rfl⟩, ok, bad⟩
        · cases same
          rw [fx] at bad
          cases bad
        · exact ⟨pre', y, post, rfl, fun z mem => ok z (by simp [mem]), bad⟩
theorem forall₂_and_eq_iff {α : Type} {P : α → Prop} {l l' : List α} :
    List.Forall₂ (fun a b => P a ∧ a = b) l l' ↔ (∀ a ∈ l, P a) ∧ l = l' := by
  induction l generalizing l' with
  | nil => cases l' <;> simp
  | cons a l ih =>
    cases l'
    · simp
    · simp only [List.forall₂_cons, ih, List.forall_mem_cons, List.cons.injEq]
      tauto

theorem map_eq_iff_of_forall₂ {α β : Type} {R : α → β → Prop} {g : β → α} {Q : α → Prop}
    (each : ∀ a b, R a b → (g b = a ↔ Q a)) {l : List α} {l' : List β}
    (related : List.Forall₂ R l l') : l'.map g = l ↔ ∀ a ∈ l, Q a := by
  induction related with
  | nil => simp
  | cons head _ ih => simp [each _ _ head, ih]

namespace Types

/-- A loop `for i, x := range xs` that returns the first check that fails, its error
formatted with the index by `msg`. -/
def validateEach {α : Type} (msg : Nat → String → String) (check : α → Except String Unit) :
    Nat → List α → Except String Unit
  | _, [] => .ok ()
  | i, x :: rest =>
    match check x with
    | .error err => .error (msg i err)
    | .ok () => validateEach msg check (i + 1) rest

theorem validateEach_eq_ok {α : Type} (msg : Nat → String → String)
    (check : α → Except String Unit) (i : Nat) (xs : List α) :
    validateEach msg check i xs = .ok () ↔ ∀ x ∈ xs, check x = .ok () := by
  induction xs generalizing i with
  | nil => simp [validateEach]
  | cons x rest ih => cases valid : check x <;> simp [validateEach, valid, ih]

/-- The loop fails exactly at its first element that fails the check, and reports that
element's index. -/
theorem validateEach_eq_error {α : Type} (msg : Nat → String → String)
    (check : α → Except String Unit) (i : Nat) (xs : List α) (e : String) :
    validateEach msg check i xs = .error e ↔ ∃ pre x post err, xs = pre ++ x :: post ∧
      (∀ y ∈ pre, check y = .ok ()) ∧ check x = .error err ∧ e = msg (i + pre.length) err := by
  induction xs generalizing i with
  | nil => simp [validateEach]
  | cons x rest ih =>
    simp only [List.cons_eq_append_iff]
    cases valid : check x with
    | error err =>
      simp only [validateEach, valid, Except.error.injEq]
      constructor
      · rintro rfl
        exact ⟨[], x, rest, err, .inl ⟨rfl, rfl⟩, by simp, valid, by simp⟩
      · rintro ⟨pre, y, post, err', ⟨rfl, same⟩ | ⟨pre', rfl, -⟩, ok, bad, rfl⟩
        · cases same
          rw [valid] at bad
          cases bad
          simp
        · simp [valid] at ok
    | ok u =>
      cases u
      simp only [validateEach, valid, ih]
      constructor
      · rintro ⟨pre, y, post, err, rfl, ok, bad, rfl⟩
        exact ⟨x :: pre, y, post, err, .inr ⟨pre, rfl, rfl⟩,
          List.forall_mem_cons.mpr ⟨valid, ok⟩, bad, by simp [Nat.add_assoc, Nat.add_comm 1]⟩
      · rintro ⟨pre, y, post, err, ⟨rfl, same⟩ | ⟨pre', rfl, rfl⟩, ok, bad, rfl⟩
        · cases same
          rw [valid] at bad
          cases bad
        · exact ⟨pre', y, post, err, rfl, fun z mem => ok z (by simp [mem]), bad,
            by simp [Nat.add_assoc, Nat.add_comm 1]⟩

/-- `tmhash.Size`: a SHA-256 digest is 32 bytes. -/
def tmhashSize : Nat := 32

/-- `ValidateHash`: a hash is empty or `tmhash.Size` bytes long. -/
def validateHash (h : Bytes) : Except String Unit :=
  if h.length > 0 ∧ h.length ≠ tmhashSize then
    .error ("expected size to be " ++ toString tmhashSize ++ " bytes, got " ++
      toString h.length ++ " bytes")
  else .ok ()

@[simp] theorem validateHash_eq_ok (h : Bytes) :
    validateHash h = .ok () ↔ h = [] ∨ h.length = tmhashSize := by
  rcases h with _ | ⟨b, h⟩ <;> simp [validateHash]

/-- `if !ok { return errors.New(err) }`. -/
def ensure (ok : Prop) [Decidable ok] (err : String) : Except String Unit :=
  if ok then .ok () else .error err

@[simp] theorem ensure_eq_ok (ok : Prop) [Decidable ok] (err : String) :
    ensure ok err = .ok () ↔ ok := by
  by_cases h : ok <;> simp [ensure, h]

theorem ensure_eq_error (ok : Prop) [Decidable ok] (err e : String) :
    ensure ok err = .error e ↔ ¬ok ∧ e = err := by
  by_cases h : ok <;> simp [ensure, h, eq_comm]

/-- `fmt.Errorf(pre + "%v", err)` (or `%w`) when a nested check fails, nil when it passes. -/
def wrapErr (pre : String) : Except String Unit → Except String Unit
  | .error err => .error (pre ++ err)
  | .ok () => .ok ()

@[simp] theorem wrapErr_eq_ok (pre : String) (check : Except String Unit) :
    wrapErr pre check = .ok () ↔ check = .ok () := by
  cases check <;> simp [wrapErr]

theorem wrapErr_eq_error (pre : String) (check : Except String Unit) (e : String) :
    wrapErr pre check = .error e ↔ ∃ err, check = .error err ∧ e = pre ++ err := by
  cases check <;> simp [wrapErr, eq_comm]

/-- `HexBytes.String`: upper-case hex, two digits a byte. -/
def hexString (bz : Bytes) : String :=
  let digit (n : Nat) : Char := Char.ofNat (if n < 10 then 48 + n else 55 + n)
  String.mk (bz.flatMap fun b => [digit (b.toNat / 16), digit (b.toNat % 16)])

end Types

end CelestiaCore
