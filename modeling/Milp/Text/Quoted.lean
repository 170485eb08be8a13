/-!
Quoted text as diagnostics print it: between double quotes, with the quote, the backslash and
the common control characters escaped by a backslash, and the other characters that have no
visible form written as `\u{hex}`.
-/
namespace Milp.Text

/-- Lower-case hexadecimal digits of `n`, without leading zeros. -/
def hexDigits (n : Nat) : String :=
  let digit (d : Nat) : Char := if d < 10 then Char.ofNat (48 + d) else Char.ofNat (87 + d)
  String.ofList ((Nat.toDigits 16 n).map fun c => digit (if c.isDigit then c.toNat - 48 else c.toNat - 87))

/-- Characters without a visible form: the C0 and C1 control ranges, delete and the soft hyphen. -/
def invisible (c : Char) : Bool :=
  c.toNat < 32 || (127 ≤ c.toNat && c.toNat < 160) || c.toNat == 173

/-- One character inside quoted text. -/
def escapeChar (c : Char) : String :=
  if c = '\x00' then "\\0"
  else if c = '\t' then "\\t"
  else if c = '\r' then "\\r"
  else if c = '\n' then "\\n"
  else if c = '\\' then "\\\\"
  else if c = '"' then "\\\""
  else if invisible c then "\\u" ++ "\x7b" ++ hexDigits c.toNat ++ "\x7d"
  else c.toString

/-- Text between double quotes, escaped. -/
def quoted (s : String) : String := "\"" ++ String.join (s.toList.map escapeChar) ++ "\""

end Milp.Text
