namespace BootMedia.Text

namespace Similarity

def range (a b : List Char) : Nat := max a.length b.length / 2 - 1

/-- The places in `b` of the characters matched so far, the last one first, after one more character
of `a`, from place `i`. -/
def addMatch (range : Nat) (b : List Char) (found : List (Char × Nat)) (c : Char) (i : Nat) :
    List (Char × Nat) :=
  let isFree (j : Nat) : Bool :=
    i ≤ j + range && j ≤ i + range && b[j]? == some c && !(found.map (·.2)).contains j
  match (List.range b.length).find? isFree with
  | some j => (c, j) :: found
  | none => found

def matched (a b : List Char) : List (Char × Nat) :=
  let range := range a b
  (a.zipIdx.foldl (fun found ci ↦ addMatch range b found ci.1 ci.2) []).reverse

def transpositions (found : List (Char × Nat)) : Nat :=
  let inPlace := (found.mergeSort fun x y ↦ x.2 ≤ y.2).map (·.1)
  ((found.map (·.1)).zip inPlace).countP (fun p ↦ p.1 != p.2) / 2

end Similarity

open Similarity in
/-- Jaro's measure: the mean of the shares of matched characters in either text and of matches in
order. Each step is rounded, so that it may come out a little greater than it is. -/
def similarity (a b : String) : Float :=
  let (a, b) := (a.toList, b.toList)
  if a.isEmpty && b.isEmpty then 1
  else
    let found := matched a b
    let n := Float.ofNat found.length
    let ordered := Float.ofNat (found.length - transpositions found)
    if found.isEmpty then 0
    else (n / Float.ofNat a.length + n / Float.ofNat b.length + ordered / n) / 3

end BootMedia.Text
