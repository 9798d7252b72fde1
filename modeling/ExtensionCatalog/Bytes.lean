/-
**Byte strings and the two orders in which they spell numbers.**

* `bigEndian_append`: what appending does to the number spelled;
* `takeExact_eq_some_iff`: taking bytes succeeds exactly when there are enough of them;
* `toNat_byte`, `range_iff`: bytes as numbers.
-/

namespace ExtensionCatalog

/-- The content of a file or of a part of one. -/
abbrev Bytes := List UInt8

namespace Bytes

/-- The number spelled with its most significant byte first. -/
def bigEndian (bytes : Bytes) : Nat :=
  bytes.foldl (fun number byte => number * 256 + byte.toNat) 0

/-- The number spelled with its least significant byte first. -/
def littleEndian : Bytes → Nat
  | [] => 0
  | byte :: rest => byte.toNat + 256 * littleEndian rest

/-- The first `count` bytes and the rest, if there are that many. -/
def takeExact : Nat → Bytes → Option (Bytes × Bytes)
  | 0, bytes => some ([], bytes)
  | _ + 1, [] => none
  | count + 1, byte :: rest =>
    (takeExact count rest).map fun (taken, remaining) => (byte :: taken, remaining)

theorem toNat_byte (number : Nat) (small : number < 0x100) : number.toUInt8.toNat = number := by
  simpa [Nat.toUInt8] using Nat.mod_eq_of_lt small

/-- A byte between two others, as numbers. -/
theorem range_iff {low high byte : UInt8} :
    (low ≤ byte && byte ≤ high) = true ↔ low.toNat ≤ byte.toNat ∧ byte.toNat ≤ high.toNat := by
  simp only [Bool.and_eq_true, decide_eq_true_eq, UInt8.le_iff_toNat_le]

/-- Taking bytes succeeds exactly when there are enough of them. -/
theorem takeExact_eq_some_iff {count : Nat} {bytes taken remaining : Bytes} :
    takeExact count bytes = some (taken, remaining) ↔
      bytes = taken ++ remaining ∧ taken.length = count := by
  induction count generalizing bytes taken with
  | zero => grind [takeExact]
  | succ count hypothesis =>
    cases bytes with
    | nil =>
      refine ⟨fun found => by simp [takeExact] at found, fun ⟨whole, long⟩ => ?_⟩
      simp_all
    | cons byte rest =>
      simp only [takeExact, Option.map_eq_some_iff, Prod.exists, Prod.mk.injEq]
      constructor
      · rintro ⟨early, late, found, rfl, rfl⟩
        obtain ⟨rfl, rfl⟩ := hypothesis.mp found
        simp
      · rintro ⟨whole, long⟩
        cases taken with
        | nil => simp at long
        | cons first more =>
          simp only [List.cons_append, List.cons.injEq] at whole
          obtain ⟨rfl, rfl⟩ := whole
          exact ⟨more, remaining, hypothesis.mpr ⟨rfl, by simpa using long⟩, rfl, rfl⟩

@[simp] theorem bigEndian_nil : bigEndian [] = 0 := rfl

theorem bigEndian_append (first second : Bytes) :
    bigEndian (first ++ second) =
      bigEndian first * Nat.pow 256 second.length + bigEndian second := by
  have shift (bytes : Bytes) (start : Nat) :
      bytes.foldl (fun number (byte : UInt8) => number * 256 + byte.toNat) start =
        start * Nat.pow 256 bytes.length + bigEndian bytes := by
    induction bytes generalizing start with
    | nil => simp
    | cons byte rest hypothesis =>
      have grown : Nat.pow 256 (byte :: rest).length = Nat.pow 256 rest.length * 256 := rfl
      rw [bigEndian, List.foldl_cons, List.foldl_cons, hypothesis,
        hypothesis (0 * 256 + byte.toNat), grown]
      grind
  rw [bigEndian, List.foldl_append, shift]
  rfl

end Bytes

end ExtensionCatalog
