/-! Similar texts, by the characters they have in common in the same order. -/
namespace ConventionLint.Text

/-- The length of the common front of two texts. -/
def commonFront : List Char → List Char → Nat
  | a :: as, b :: bs => if a = b then 1 + commonFront as bs else 0
  | _, _ => 0

/-- A block that two texts have in common, by where it starts in each of them. -/
structure Block where
  first : Nat
  second : Nat
  size : Nat

/-- The longest common block; of several the one that starts first. -/
def longestBlock (a b : List Char) : Block :=
  let blocks := (List.range a.length).flatMap fun i =>
    (List.range b.length).map fun j => (⟨i, j, commonFront (a.drop i) (b.drop j)⟩ : Block)
  blocks.foldl (fun best x => if best.size < x.size then x else best) ⟨0, 0, 0⟩

/-- The number of characters in common blocks: the longest one, and those on each side of it. -/
def commonCount : Nat → List Char → List Char → Nat
  | 0, _, _ => 0
  | fuel + 1, a, b =>
    let x := longestBlock a b
    if x.size = 0 then 0
    else x.size + commonCount fuel (a.take x.first) (b.take x.second)
      + commonCount fuel (a.drop (x.first + x.size)) (b.drop (x.second + x.size))

/-- The share of common characters in both texts, in thousandths. -/
def similarity (a b : String) : Nat :=
  let total := a.length + b.length
  if total = 0 then 1000
  else 2000 * commonCount (total + 1) a.toList b.toList / total

/-- Up to three texts that have at least three fifths in common with a text, in order. -/
def similar (text : String) (candidates : List String) : List String :=
  let close := candidates.filter fun c => 600 ≤ similarity c text
  let best := (close.mergeSort fun a b => decide (similarity b text ≤ similarity a text)).take 3
  best.mergeSort fun a b => decide (a ≤ b)

end ConventionLint.Text
