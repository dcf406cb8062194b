import TowerCalc.Exact.Power

/-!
# Factorials, binomial coefficients and Bernoulli numbers

## Results

* `factorial n`, `choose n k`: on naturals.
* `binomial n k`: the binomial coefficient of an integer `n` and any `k`.
* `bernoulliNumber n`: the Bernoulli numbers with `B 1 = -1/2`.
-/
namespace TowerCalc

/-- The product of the integers `lo + 1, …, lo + count`, split in halves. -/
def risingProduct (lo : Nat) (count : Nat) : Nat :=
  if count = 0 then 1
  else if count = 1 then lo + 1
  else risingProduct lo (count / 2) * risingProduct (lo + count / 2) (count - count / 2)
termination_by count

/-- `n!`. -/
def factorial (n : Nat) : Nat := risingProduct 0 n

/-- The number of `k`-element subsets of an `n`-element set. Of `k` and `n - k`
the smaller decides the number of factors. -/
def choose (n k : Nat) : Nat :=
  if n < k then 0
  else
    let j := min k (n - k)
    risingProduct (n - j) j / factorial j

/-- The binomial coefficient; a negative `n` reflects to `k - n - 1` (`exact_binomial`). -/
def binomial (n k : Int) : Int :=
  if k < 0 then 0
  else if 0 ≤ n then choose n.toNat k.toNat
  else
    let c : Int := choose (k - n - 1).toNat k.toNat
    if k % 2 = 0 then c else -c

/-! ## Tangent numbers

The tangent numbers `1, 2, 16, 272, …` are the Taylor coefficients of the
tangent times factorials. Starting from the factorials `0!, 1!, 2!, …`, each
sweep fixes one more of them. -/

/-- One sweep over the entries from index `i` on, `i` counted from the entry
that the sweep fixes; `before` is the entry to the left. -/
def tangentSweep (i : Nat) (before : Nat) : List Nat → List Nat
  | [] => []
  | t :: ts =>
    let t' := i * before + (i + 2) * t
    t' :: tangentSweep (i + 1) t' ts

/-- The first entry is fixed; the others are swept and go on. -/
def tangentFrom : Nat → List Nat → List Nat
  | 0, _ | _, [] => []
  | fuel + 1, t :: ts => t :: tangentFrom fuel (tangentSweep 0 t ts)

/-- `0!, 1!, …, (n-1)!`. -/
def factorials (n : Nat) : List Nat :=
  ((List.range n).foldl (fun (acc : List Nat × Nat) i => (acc.2 :: acc.1, acc.2 * (i + 1)))
    ([], 1)).1.reverse

/-- The first `n` tangent numbers. -/
def tangentNumbers (n : Nat) : List Nat := tangentFrom n (factorials n)

/-- The Bernoulli number `B (2 n)` for `n ≥ 1` from the `n`-th tangent number. -/
def bernoulliOfTangent (n t : Nat) : Rat :=
  let four := powNat 4 n
  let size := Rat.divInt (2 * n * t : Nat) (four * (four - 1) : Nat)
  if n % 2 = 1 then size else -size

/-- The Bernoulli number `B n`. -/
def bernoulliNumber (n : Nat) : Rat :=
  if n = 0 then 1
  else if n = 1 then -1 / 2
  else if n % 2 = 1 then 0
  else bernoulliOfTangent (n / 2) ((tangentNumbers (n / 2)).getLast?.getD 0)

/-- `B 2, B 4, …, B (2 n)`. -/
def evenBernoulliNumbers (n : Nat) : List Rat :=
  (tangentNumbers n).mapIdx fun i t => bernoulliOfTangent (i + 1) t

end TowerCalc
