import Kswarm.Lib.Json

/-! Writing and reading JSON text. The writer keeps the key order it is given and uses no
whitespace; the reader covers the whole grammar, with whitespace, every escape, fractions and
exponents, and keeps the last of several members with one key. -/
namespace Kswarm
namespace Json

/-- A lowercase hexadecimal digit. -/
def hexChar (n : ℕ) : Char := if n < 10 then Char.ofNat (48+n) else Char.ofNat (87+n)

lemma hexChar_ascii {n : ℕ} (h : n < 16) : (hexChar n).toNat < 128 := by
  interval_cases n <;> decide

/-- The quote, the backslash and the C0 controls are escaped, five of these in short form. -/
def escapeChar (c : Char) : List Char :=
  if c = '"' then ['\\','"']
  else if c = '\\' then ['\\','\\']
  else if c = '\n' then ['\\','n']
  else if c = '\r' then ['\\','r']
  else if c = '\t' then ['\\','t']
  else if c.toNat = 8 then ['\\','b']
  else if c.toNat = 12 then ['\\','f']
  else if c.toNat < 32 then ['\\','u','0','0',hexChar (c.toNat/16),hexChar (c.toNat%16)]
  else [c]

def renderStr (s : String) : List Char := '"' :: (s.toList.flatMap escapeChar ++ ['"'])

mutual
/-- Compact text of a tree, members in the order they are stored. -/
def render : Json → List Char
  | .null => ['n','u','l','l']
  | .bool true => ['t','r','u','e']
  | .bool false => ['f','a','l','s','e']
  | .int n => decimalInt n
  | .float f => f.text
  | .str s => renderStr s
  | .arr [] => ['[',']']
  | .arr (x::xs) => '[' :: (render x ++ renderElems xs)
  | .obj [] => ['{','}']
  | .obj ((k,x)::fs) => '{' :: (renderStr k ++ ':' :: (render x ++ renderFields fs))
def renderElems : List Json → List Char
  | [] => [']']
  | x::xs => ',' :: (render x ++ renderElems xs)
def renderFields : List (String × Json) → List Char
  | [] => ['}']
  | (k,x)::fs => ',' :: (renderStr k ++ ':' :: (render x ++ renderFields fs))
end

mutual
/-- The text with a blank after every separator. -/
def renderSpaced : Json → List Char
  | .arr [] => ['[',']']
  | .arr (x::xs) => '[' :: (renderSpaced x ++ spacedElems xs)
  | .obj [] => ['{','}']
  | .obj ((k,x)::fs) => '{' :: (renderStr k ++ ':' :: ' ' :: (renderSpaced x ++ spacedFields fs))
  | v => render v
def spacedElems : List Json → List Char
  | [] => [']']
  | x::xs => ',' :: ' ' :: (renderSpaced x ++ spacedElems xs)
def spacedFields : List (String × Json) → List Char
  | [] => ['}']
  | (k,x)::fs => ',' :: ' ' :: (renderStr k ++ ':' :: ' ' :: (renderSpaced x ++ spacedFields fs))
end

def isWs (c : Char) : Bool := c == ' ' || c == '\n' || c == '\r' || c == '\t'

def skipWs (cs : List Char) : List Char := cs.dropWhile isWs

def hexValue (c : Char) : Option ℕ :=
  if 48 ≤ c.toNat ∧ c.toNat ≤ 57 then some (c.toNat-48)
  else if 97 ≤ c.toNat ∧ c.toNat ≤ 102 then some (c.toNat-87)
  else if 65 ≤ c.toNat ∧ c.toNat ≤ 70 then some (c.toNat-55)
  else none

def readHex4 : List Char → Option (ℕ × List Char)
  | a::b::c::d::r => do
    let a ← hexValue a
    let b ← hexValue b
    let c ← hexValue c
    let d ← hexValue d
    some (((a*16 + b)*16 + c)*16 + d,r)
  | _ => none

/-- The four digits of a `\u` escape. A high surrogate needs its low half; a lone surrogate is
not a scalar value and is refused. -/
def readUnicode (cs : List Char) : Option (Char × List Char) := do
  let (hi,r) ← readHex4 cs
  if 0xD800 ≤ hi ∧ hi < 0xDC00 then
    match r with
    | '\\' :: 'u' :: r' => do
      let (lo,r'') ← readHex4 r'
      if 0xDC00 ≤ lo ∧ lo < 0xE000 then
        some (Char.ofNat (0x10000 + (hi-0xD800)*0x400 + (lo-0xDC00)),r'')
      else none
    | _ => none
  else if 0xDC00 ≤ hi ∧ hi < 0xE000 then none
  else some (Char.ofNat hi,r)

/-- What follows a backslash. -/
def readEscape : List Char → Option (Char × List Char)
  | [] => none
  | c::r =>
    if c = 'u' then readUnicode r
    else if c = '"' ∨ c = '\\' ∨ c = '/' then some (c,r)
    else if c = 'n' then some ('\n',r)
    else if c = 'r' then some ('\r',r)
    else if c = 't' then some ('\t',r)
    else if c = 'b' then some (Char.ofNat 8,r)
    else if c = 'f' then some (Char.ofNat 12,r)
    else none

/-- The characters of a string up to its closing quote. -/
def readChars : ℕ → List Char → Option (List Char × List Char)
  | 0,_ => none
  | _+1,[] => none
  | n+1,c::r =>
    if c = '"' then some ([],r)
    else if c = '\\' then do
      let (d,r) ← readEscape r
      let (ds,r) ← readChars n r
      some (d::ds,r)
    else if c.toNat < 32 then none
    else do
      let (ds,r) ← readChars n r
      some (c::ds,r)

def readString (cs : List Char) : Option (String × List Char) :=
  (readChars (cs.length+1) cs).map (fun p => (String.ofList p.1,p.2))

/-- A fraction is taken only when a digit follows the point. -/
def readFraction : List Char → List Char × List Char
  | '.'::r => if (r.takeWhile isDigit).isEmpty then ([],'.'::r)
    else (r.takeWhile isDigit,r.dropWhile isDigit)
  | r => ([],r)

/-- An exponent is taken only when a digit follows its optional sign. -/
def readExponent (cs : List Char) : Option ℤ × List Char :=
  match cs with
  | c::r =>
    if c = 'e' ∨ c = 'E' then
      let (neg,r) := match r with
        | '-'::r => (true,r)
        | '+'::r => (false,r)
        | r => (false,r)
      let ds := r.takeWhile isDigit
      if ds.isEmpty then (none,cs)
      else (some (if neg then -(digitsValue ds : ℤ) else digitsValue ds),r.dropWhile isDigit)
    else (none,cs)
  | [] => (none,cs)

/-- The integer part: a lone zero, or a run of digits. -/
def wholeDigits (cs : List Char) : List Char :=
  match cs with
  | '0'::_ => ['0']
  | _ => cs.takeWhile isDigit

/-- Unsigned number: an integer unless a fraction or an exponent follows. -/
def readUnsigned (neg : Bool) (cs : List Char) : Option (Json × List Char) :=
  let whole := wholeDigits cs
  if whole.isEmpty then none
  else
    let (frac,r) := readFraction (cs.drop whole.length)
    let (exp,r) := readExponent r
    if frac.isEmpty ∧ exp = none then
      let n : ℤ := digitsValue whole
      some (.int (if neg then -n else n),r)
    else
      some (.float (Binary64.ofDecimal neg (digitsValue (whole ++ frac))
        (exp.getD 0 - frac.length)),r)

/-- The literal names and what each stands for. -/
def literals : List (List Char × Json) := [
  (['n','u','l','l'],.null),
  (['t','r','u','e'],.bool true),
  (['f','a','l','s','e'],.bool false),
  (['N','a','N'],.float .nan),
  (['I','n','f','i','n','i','t','y'],.float (.inf false)),
  (['-','I','n','f','i','n','i','t','y'],.float (.inf true))]

/-- A literal name, or a number. -/
def readAtom (cs : List Char) : Option (Json × List Char) :=
  match literals.find? (fun l => l.1.isPrefixOf cs) with
  | some l => some (l.2,cs.drop l.1.length)
  | none =>
    match cs with
    | '-'::r => readUnsigned true r
    | cs => readUnsigned false cs

/-- Replace the value of a present key, or append a new member. -/
def setKey (fs : List (String × Json)) (k : String) (v : Json) : List (String × Json) :=
  if k ∈ fs.map Prod.fst then fs.map (fun p => if p.1 = k then (k,v) else p) else fs ++ [(k,v)]

/-- The members of a dictionary display: the last member with a key wins. -/
def dictOf (fs : List (String × Json)) : List (String × Json) :=
  fs.foldl (fun d p => setKey d p.1 p.2) []

mutual
def readValue : ℕ → List Char → Option (Json × List Char)
  | 0,_ => none
  | _+1,[] => none
  | n+1,c::r =>
    if c = '"' then (readString r).map (fun p => (.str p.1,p.2))
    else if c = '[' then
      match skipWs r with
      | ']'::r' => some (.arr [],r')
      | r' => (readElems n r').map (fun p => (.arr p.1,p.2))
    else if c = '{' then
      match skipWs r with
      | '}'::r' => some (.obj [],r')
      | r' => (readFields n r').map (fun p => (.obj (dictOf p.1),p.2))
    else readAtom (c::r)
def readElems : ℕ → List Char → Option (List Json × List Char)
  | 0,_ => none
  | n+1,cs => do
    let (x,r) ← readValue n cs
    match skipWs r with
    | ','::r' => (readElems n (skipWs r')).map (fun p => (x::p.1,p.2))
    | ']'::r' => some ([x],r')
    | _ => none
def readFields : ℕ → List Char → Option (List (String × Json) × List Char)
  | 0,_ => none
  | _+1,[] => none
  | n+1,c::r =>
    if c = '"' then do
      let (k,r) ← readString r
      match skipWs r with
      | ':'::r => do
        let (x,r) ← readValue n (skipWs r)
        match skipWs r with
        | ','::r' => (readFields n (skipWs r')).map (fun p => ((k,x)::p.1,p.2))
        | '}'::r' => some ([(k,x)],r')
        | _ => none
      | _ => none
    else none
end

/-- A whole JSON text: one value, with whitespace around it. -/
def loads (cs : List Char) : Option Json :=
  match readValue (cs.length+1) (skipWs cs) with
  | some (v,r) => if (skipWs r).isEmpty then some v else none
  | none => none

end Json
end Kswarm
