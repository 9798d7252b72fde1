/-
**Constants as their bytes stand.**

A string constant may be of any bytes, whether or not they are some text. All constants are decoded
before it is known which ones matter, so the first one that is no text stops the reading.

* `Raw`: a string of any bytes, or any other constant;
* `Raw.yields`, `Raw.fails`: a constant is read unless it is a string that is no text;
* `firstUnread`, `fails_unread`: **the first constant that is not read stops the reading**.
-/

import ExtensionCatalog.Proofs.ClassFile.Pool

namespace ExtensionCatalog.ClassFile.Layout

open ByteReader

/-- A constant as its bytes stand: a string of any bytes, or a constant that is well written. -/
inductive Raw where
  | string (body : Bytes)
  | known (entry : Entry)

namespace Raw

def bytes : Raw → Bytes
  | string body => stringBytes body
  | known entry => entry.bytes

def fits : Raw → Bool
  | string body => body.length < 0x10000
  | known entry => entry.fits

def places : Raw → Nat
  | string _ => 1
  | known entry => entry.places

/-- What is kept of the constant, unless it is a string that is not read. -/
def constant? : Raw → Option Constant
  | string body => (ModifiedUtf8.decode? body).map fun text => .string (String.ofList text)
  | known entry => some entry.constant

variable {raw : Raw}

theorem yields {constant : Constant} (fits : raw.fits) (read : raw.constant? = some constant)
    (index : Nat) : Yields (ConstantPool.readConstant index) raw.bytes constant := by
  cases raw with
  | string body =>
    obtain ⟨text, decoded, rfl⟩ := Option.map_eq_some_iff.mp read
    exact yields_string (of_decide_eq_true fits) decoded index
  | known entry =>
    cases read
    exact yields_constant fits index

theorem fails (fits : raw.fits) (unread : raw.constant? = none) (index : Nat) :
    Fails (ConstantPool.readConstant index) raw.bytes (.malformedString index) := by
  cases raw with
  | string body =>
    exact fails_string (of_decide_eq_true fits) (Option.map_eq_none_iff.mp unread) index
  | known entry => cases unread

theorem places_eq {constant : Constant} (read : raw.constant? = some constant) :
    raw.places = width constant := by
  cases raw with
  | string body =>
    obtain ⟨text, -, rfl⟩ := Option.map_eq_some_iff.mp read
    rfl
  | known entry =>
    cases read
    exact Entry.places_eq entry

theorem places_of_unread (unread : raw.constant? = none) : raw.places = 1 := by
  cases raw with
  | string body => rfl
  | known entry => cases unread

end Raw

/-- The number of places that constants take. -/
def rawPlaces : List Raw → Nat
  | [] => 0
  | raw :: rest => raw.places + rawPlaces rest

/-- The index of the first constant that is not read, if the constants begin at an index. -/
def firstUnread : Nat → List Raw → Option Nat
  | _, [] => none
  | index, raw :: rest =>
    if raw.constant?.isSome then firstUnread (index + raw.places) rest else some index

/-- The first constant that is not read stops the reading. -/
theorem fails_unread {constants : List Raw} {index place : Nat}
    (fits : ∀ raw ∈ constants, raw.fits) (unread : firstUnread index constants = some place) :
    Fails (ConstantPool.readPlaces (rawPlaces constants) index) (constants.flatMap Raw.bytes)
      (.malformedString place) := by
  induction constants generalizing index with
  | nil => cases unread
  | cons raw rest hypothesis =>
    rw [List.forall_mem_cons] at fits
    rw [firstUnread] at unread
    rw [List.flatMap_cons, rawPlaces]
    split at unread
    next some =>
      obtain ⟨constant, read⟩ := Option.isSome_iff_exists.mp some
      rw [Raw.places_eq read] at unread ⊢
      intro input
      rw [List.append_assoc, readPlaces_of_yields (Raw.yields fits.1 read index),
        hypothesis fits.2 unread]
      rfl
    next none =>
      cases unread
      rw [Option.not_isSome_iff_eq_none] at none
      rw [Raw.places_of_unread none, Nat.add_comm]
      exact readPlaces_of_fails (Raw.fails fits.1 none _) _ _

/-- A string that is not read is found, or one before it. -/
theorem isSome_firstUnread {constants : List Raw} {raw : Raw} (member : raw ∈ constants)
    (unread : raw.constant? = none) (index : Nat) : (firstUnread index constants).isSome := by
  induction constants generalizing index with
  | nil => cases member
  | cons head rest hypothesis =>
    rw [firstUnread]
    split
    next read =>
      rcases List.mem_cons.mp member with rfl | member
      · rw [unread] at read
        cases read
      · exact hypothesis member _
    next => rfl

end ExtensionCatalog.ClassFile.Layout
