import TowerCalc.Text.Printable

/-!
# Quoted texts

A text inside a message is quoted so that its end and every invisible character
can be seen. The quote is `'`, or `"` for a text that holds the first and not
the second. The quote in use, the backslash and the unprintable characters are
escaped.

## Results

* `quoted s`: `s` with quotes and escapes.
-/
namespace TowerCalc

/-- The hexadecimal digits of `n`, at least `width` of them. -/
def hexadecimal (width n : Nat) : String :=
  let ds := Nat.toDigits 16 n
  String.ofList (List.replicate (width - ds.length) '0' ++ ds)

/-- How the character `c` is written between two quotes `q`. -/
def escaped (q c : Char) : String :=
  if c = q ∨ c = '\\' then String.ofList ['\\', c]
  else if c = '\n' then "\\n"
  else if c = '\r' then "\\r"
  else if c = '\t' then "\\t"
  else if isPrintable c then c.toString
  else if c.toNat < 0x100 then "\\x" ++ hexadecimal 2 c.toNat
  else if c.toNat < 0x10000 then "\\u" ++ hexadecimal 4 c.toNat
  else "\\U" ++ hexadecimal 8 c.toNat

/-- The quote that a text is written with. -/
def quoteFor (s : String) : Char :=
  if s.contains '\'' && !s.contains '"' then '"' else '\''

/-- `s` between quotes. -/
def quoted (s : String) : String :=
  let q := quoteFor s
  q.toString ++ String.join (s.toList.map (escaped q)) ++ q.toString

end TowerCalc
