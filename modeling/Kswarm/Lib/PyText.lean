import Kswarm.Lib.CharData
import Kswarm.Lib.JsonText

/-! How Python's `repr` and `str` spell a parsed JSON value. -/
namespace Kswarm
namespace Json

/-- `n` in lowercase hexadecimal, of a fixed width. -/
def hexFixed (width n : ℕ) : List Char :=
  (List.range width).reverse.map (fun i => hexChar (n/16^i % 16))

/-- A text with an apostrophe and no double quote stands in double quotes. -/
def quoteOf (s : List Char) : Char := if '\'' ∈ s ∧ '"' ∉ s then '"' else '\''

section Repr
variable [CharData]

def reprChar (quote c : Char) : List Char :=
  if c = quote ∨ c = '\\' then ['\\',c]
  else if c = '\n' then ['\\','n']
  else if c = '\r' then ['\\','r']
  else if c = '\t' then ['\\','t']
  else if CharData.isPrintable c then [c]
  else if c.toNat < 0x100 then '\\' :: 'x' :: hexFixed 2 c.toNat
  else if c.toNat < 0x10000 then '\\' :: 'u' :: hexFixed 4 c.toNat
  else '\\' :: 'U' :: hexFixed 8 c.toNat

def reprChars (s : List Char) : List Char :=
  quoteOf s :: (s.flatMap (reprChar (quoteOf s)) ++ [quoteOf s])

def reprFloat : Binary64 → List Char
  | .inf false => "inf".toList
  | .inf true => "-inf".toList
  | .nan => "nan".toList
  | f => f.text

mutual
/-- `repr(value)`. -/
def repr : Json → List Char
  | .null => "None".toList
  | .bool true => "True".toList
  | .bool false => "False".toList
  | .int n => decimalInt n
  | .float f => reprFloat f
  | .str s => reprChars s.toList
  | .arr [] => ['[',']']
  | .arr (x::xs) => '[' :: (repr x ++ reprElems xs)
  | .obj [] => ['\x7b','\x7d']
  | .obj ((k,x)::fs) =>
    '\x7b' :: (reprChars k.toList ++ ':' :: ' ' :: (repr x ++ reprFields fs))
def reprElems : List Json → List Char
  | [] => [']']
  | x::xs => ',' :: ' ' :: (repr x ++ reprElems xs)
def reprFields : List (String × Json) → List Char
  | [] => ['\x7d']
  | (k,x)::fs =>
    ',' :: ' ' :: (reprChars k.toList ++ ':' :: ' ' :: (repr x ++ reprFields fs))
end

/-- `str(value)`. -/
def strOf : Json → String
  | .str s => s
  | v => String.ofList (repr v)

end Repr

example : @repr CharData.ascii (.obj [("url",.null),("who's",.arr [.bool true,.str "a\n"])]) =
    "\x7b'url': None, \"who's\": [True, 'a\\n']\x7d".toList := by decide

end Json
end Kswarm
