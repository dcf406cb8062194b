import TowerCalc.Real.Basic

/-!
# Complex numbers

A complex number is a pair of extended reals. A complex number with imaginary
part zero is not a real number here; results are narrowed elsewhere. Sums and
products round each part once.

## Results

* `ExtComplex.add`, `sub`, `mul`, `neg`, `conj`: rounded arithmetic.
* `addReal`, `mulReal` and their kin: one operand real.
* `div`, `divReal`, `realDiv`: quotients by a non-zero number.
-/
namespace TowerCalc

structure ExtComplex where
  re : ExtReal
  im : ExtReal
  deriving DecidableEq

namespace ExtComplex

instance : Inhabited ExtComplex := ⟨⟨.nan, .nan⟩⟩

def ofReal (x : ExtReal) : ExtComplex := ⟨x, .zero⟩

def isZero (z : ExtComplex) : Bool := z.re.isZero && z.im.isZero

/-- The same number; `nan` parts are never the same. -/
def same (z w : ExtComplex) : Bool := z.re.same w.re && z.im.same w.im

/-- Both parts rounded to `p` binary digits. -/
def round (p : Nat) (z : ExtComplex) : ExtComplex := ⟨z.re.round p, z.im.round p⟩

/-- `-z`, exactly. -/
def opposite (z : ExtComplex) : ExtComplex := ⟨z.re.opposite, z.im.opposite⟩

def neg (p : Nat) (z : ExtComplex) : ExtComplex := ⟨z.re.neg p, z.im.neg p⟩

/-- The conjugate; only the imaginary part is rounded. -/
def conj (p : Nat) (z : ExtComplex) : ExtComplex := ⟨z.re, z.im.neg p⟩

def add (p : Nat) (z w : ExtComplex) : ExtComplex := ⟨z.re.add p w.re, z.im.add p w.im⟩

def sub (p : Nat) (z w : ExtComplex) : ExtComplex := ⟨z.re.sub p w.re, z.im.sub p w.im⟩

/-- `z + x`; the imaginary part stays as it is. -/
def addReal (p : Nat) (z : ExtComplex) (x : ExtReal) : ExtComplex := ⟨z.re.add p x, z.im⟩

/-- `z - x`; the imaginary part stays as it is. -/
def subReal (p : Nat) (z : ExtComplex) (x : ExtReal) : ExtComplex := ⟨z.re.sub p x, z.im⟩

end ExtComplex

namespace ExtReal

/-- `x * y` without rounding. -/
def mulExact : ExtReal → ExtReal → ExtReal
  | .finite x, .finite y => .finite (x * y)
  | x, y => mul 1 x y

end ExtReal

namespace ExtComplex

/-- `z * w`: four exact products, each part rounded once. -/
def mul (p : Nat) (z w : ExtComplex) : ExtComplex :=
  ⟨(z.re.mulExact w.re).sub p (z.im.mulExact w.im),
    (z.re.mulExact w.im).add p (z.im.mulExact w.re)⟩

def mulReal (p : Nat) (z : ExtComplex) (x : ExtReal) : ExtComplex :=
  ⟨z.re.mul p x, z.im.mul p x⟩

/-- A quotient whose divisor is known to be non-zero. -/
def quotient (p : Nat) (x y : ExtReal) : ExtReal := (x.div? p y).getD .nan

/-- `|z|^2` at precision `p`. -/
def normSquare (p : Nat) (z : ExtComplex) : ExtReal :=
  (z.re.mulExact z.re).add p (z.im.mulExact z.im)

/-- `z / w` for `w ≠ 0`: `z` times the conjugate of `w`, over `|w|^2`. The inner
sums carry ten digits more than the result. -/
def div (p : Nat) (z w : ExtComplex) : ExtComplex :=
  let q := p + 10
  let n := normSquare q w
  let t := (z.re.mulExact w.re).add q (z.im.mulExact w.im)
  let u := (z.im.mulExact w.re).sub q (z.re.mulExact w.im)
  ⟨quotient p t n, quotient p u n⟩

def divReal (p : Nat) (z : ExtComplex) (x : ExtReal) : ExtComplex :=
  ⟨quotient p z.re x, quotient p z.im x⟩

/-- `x / z` for `z ≠ 0`. -/
def realDiv (p : Nat) (x : ExtReal) (z : ExtComplex) : ExtComplex :=
  let n := normSquare (p + 10) z
  ⟨quotient p (z.re.mulExact x) n, quotient p (z.im.mulExact x).opposite n⟩

end ExtComplex

end TowerCalc
