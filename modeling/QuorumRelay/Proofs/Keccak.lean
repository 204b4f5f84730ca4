import Mathlib.Tactic.IntervalCases
import QuorumRelay.Hash.Keccak

/-!
# Hashing by rows

A proof that is about one particular message has to compute hashes.  The state of
the permutation is a vector, and each time a lane is read from it a list is walked
along; over the 24 rounds this is most of the work.  Here the state is five rows
of five lanes, and a lane is read by its name.

A round takes the same steps in both forms (`Rows.round_toState`), so both give
the same hashes (`keccak256_eq`).

## Where lanes go

Lane `x + 5 * y` of the vector is lane `x` of row `y`.  That the rows' own tables
of rotations and moves are those of the vector is checked lane by lane.
-/

namespace QuorumRelay
namespace Keccak

/-- Five things: the lanes of a row, or the rows of the state. -/
structure Five (α : Type) where
  a : α
  b : α
  c : α
  d : α
  e : α

namespace Five

variable {α β : Type}

def map (f : α → β) (x : Five α) : Five β := ⟨f x.a, f x.b, f x.c, f x.d, f x.e⟩

/-- Exclusive or of two rows. -/
def xor (x y : Five UInt64) : Five UInt64 :=
  ⟨x.a ^^^ y.a, x.b ^^^ y.b, x.c ^^^ y.c, x.d ^^^ y.d, x.e ^^^ y.e⟩

end Five

/-- The permutation's state, row by row. -/
abbrev Rows := Five (Five UInt64)

namespace Rows

/-- The lanes in a row. -/
def toState (g : Rows) : State :=
  #v[g.a.a, g.a.b, g.a.c, g.a.d, g.a.e, g.b.a, g.b.b, g.b.c, g.b.d, g.b.e,
    g.c.a, g.c.b, g.c.c, g.c.d, g.c.e, g.d.a, g.d.b, g.d.c, g.d.d, g.d.e,
    g.e.a, g.e.b, g.e.c, g.e.d, g.e.e]

/-- The state with given lanes. -/
def ofLanes (f : Nat → UInt64) : Rows :=
  ⟨⟨f 0, f 1, f 2, f 3, f 4⟩, ⟨f 5, f 6, f 7, f 8, f 9⟩, ⟨f 10, f 11, f 12, f 13, f 14⟩,
    ⟨f 15, f 16, f 17, f 18, f 19⟩, ⟨f 20, f 21, f 22, f 23, f 24⟩⟩

/-- The parity of each column. -/
def parities (g : Rows) : Five UInt64 := (((g.a.xor g.b).xor g.c).xor g.d).xor g.e

/-- A row takes the parities of the columns before and behind. -/
def mixColumns (g : Rows) : Rows :=
  let p := g.parities
  g.map fun row => (row.xor ⟨p.e, p.a, p.b, p.c, p.d⟩).xor
    ⟨rotateLeft p.b 1, rotateLeft p.c 1, rotateLeft p.d 1, rotateLeft p.e 1, rotateLeft p.a 1⟩

/-- Lanes are rotated and moved. -/
def spread (g : Rows) : Rows where
  a := ⟨rotateLeft g.a.a 0, rotateLeft g.b.b 44, rotateLeft g.c.c 43, rotateLeft g.d.d 21,
    rotateLeft g.e.e 14⟩
  b := ⟨rotateLeft g.a.d 28, rotateLeft g.b.e 20, rotateLeft g.c.a 3, rotateLeft g.d.b 45,
    rotateLeft g.e.c 61⟩
  c := ⟨rotateLeft g.a.b 1, rotateLeft g.b.c 6, rotateLeft g.c.d 25, rotateLeft g.d.e 8,
    rotateLeft g.e.a 18⟩
  d := ⟨rotateLeft g.a.e 27, rotateLeft g.b.a 36, rotateLeft g.c.b 10, rotateLeft g.d.c 15,
    rotateLeft g.e.d 56⟩
  e := ⟨rotateLeft g.a.c 62, rotateLeft g.b.d 55, rotateLeft g.c.e 39, rotateLeft g.d.a 41,
    rotateLeft g.e.b 2⟩

/-- Each lane is combined with the next two of its row. -/
def mixRows (g : Rows) : Rows :=
  g.map fun row => row.xor ⟨~~~ row.b &&& row.c, ~~~ row.c &&& row.d, ~~~ row.d &&& row.e,
    ~~~ row.e &&& row.a, ~~~ row.a &&& row.b⟩

def round (g : Rows) (constant : UInt64) : Rows :=
  let mixed := g.mixColumns.spread.mixRows
  { mixed with a.a := mixed.a.a ^^^ constant }

def permute (g : Rows) : Rows := roundConstants.foldl round g

def absorb (g : Rows) (block : List UInt8) : Rows :=
  let words := (blocks 8 block).toArray
  let input := ofLanes fun i => UInt64.ofNat (ofLittleEndian (words.getD i []))
  permute ⟨g.a.xor input.a, g.b.xor input.b, g.c.xor input.c, g.d.xor input.d, g.e.xor input.e⟩

/-- Keccak-256, by rows. -/
def hash (bytes : List UInt8) : Digest :=
  let g := (blocks rate (pad bytes)).foldl absorb (ofLanes fun _ => 0)
  ⟨littleEndian 8 g.a.a.toNat ++ littleEndian 8 g.a.b.toNat ++ littleEndian 8 g.a.c.toNat ++
    littleEndian 8 g.a.d.toNat, by simp⟩

/-! ## The two states keep in step -/

theorem columnParities_toState (g : Rows) :
    Vector.ofFn (fun x : Fin 5 => columnParity g.toState x) =
      #v[g.parities.a, g.parities.b, g.parities.c, g.parities.d, g.parities.e] := by
  refine Vector.ext fun i hi => ?_
  rw [Vector.getElem_ofFn]
  interval_cases i <;> rfl

/-- A state is given by rows when each of its lanes is. -/
theorem ofFn_eq_toState {f : Fin 25 → UInt64} {g : Rows}
    (h : ∀ i (hi : i < 25), f ⟨i, hi⟩ = g.toState[i]) : Vector.ofFn f = g.toState :=
  Vector.ext fun i hi => (Vector.getElem_ofFn hi).trans (h i hi)

theorem mixColumns_toState (g : Rows) :
    Keccak.mixColumns g.toState = g.mixColumns.toState := by
  unfold Keccak.mixColumns
  rw [columnParities_toState]
  refine ofFn_eq_toState fun i hi => ?_
  interval_cases i <;> with_unfolding_all rfl

theorem spread_toState (g : Rows) : Keccak.spread g.toState = g.spread.toState := by
  refine ofFn_eq_toState fun i hi => ?_
  interval_cases i <;> with_unfolding_all rfl

theorem mixRows_toState (g : Rows) : Keccak.mixRows g.toState = g.mixRows.toState := by
  refine ofFn_eq_toState fun i hi => ?_
  interval_cases i <;> with_unfolding_all rfl

/-- **A round takes the state by rows to the state by rows.** -/
theorem round_toState (g : Rows) (constant : UInt64) :
    Keccak.round g.toState constant = (g.round constant).toState := by
  unfold Keccak.round
  rw [mixColumns_toState, spread_toState, mixRows_toState]
  rfl

theorem permute_toState (g : Rows) : Keccak.permute g.toState = g.permute.toState := by
  unfold Keccak.permute permute
  generalize roundConstants = constants
  induction constants generalizing g with
  | nil => rfl
  | cons constant constants ih => rw [List.foldl_cons, List.foldl_cons, round_toState, ih]

theorem absorb_toState (g : Rows) (block : List UInt8) :
    Keccak.absorb g.toState block = (g.absorb block).toState := by
  unfold Keccak.absorb absorb
  rw [← permute_toState]
  refine congrArg Keccak.permute (ofFn_eq_toState fun i hi => ?_)
  interval_cases i <;> rfl

theorem foldl_absorb_toState (bs : List (List UInt8)) (g : Rows) :
    bs.foldl Keccak.absorb g.toState = (bs.foldl absorb g).toState := by
  induction bs generalizing g with
  | nil => rfl
  | cons b bs ih => rw [List.foldl_cons, List.foldl_cons, absorb_toState, ih]

end Rows

/-- **Hashing by rows is hashing.** -/
theorem keccak256_eq : keccak256 = Rows.hash := by
  funext bytes
  have hfold : (blocks rate (pad bytes)).foldl absorb (Vector.replicate 25 0) =
      ((blocks rate (pad bytes)).foldl Rows.absorb (Rows.ofLanes fun _ => 0)).toState :=
    Rows.foldl_absorb_toState _ (Rows.ofLanes fun _ => 0)
  unfold keccak256 Rows.hash
  simp only [hfold]
  rfl

example : keccak256 [] =
    .ofNat 32 0xc5d2460186f7233c927e7db2dcc703c0e500b653ca82273b7bfad8045d85a470 := by
  rw [keccak256_eq]
  decide +kernel

end Keccak
end QuorumRelay
