import DocumentStore.Pattern.Expr
import DocumentStore.Text.Blank
import DocumentStore.Text.Hex
import DocumentStore.Text.Letter

/-! Reading pattern expressions from text. Flags change how the text after them is read, up to the
end of the group they stand in; with the flag `x` blanks and remarks between the parts of a pattern
are skipped. A text that is no pattern has no reading. -/

namespace DocumentStore.Pattern

structure Flags where
  ignoreCase : Bool := false
  multiLine : Bool := false
  dotAll : Bool := false
  carriageReturn : Bool := false
  spaced : Bool := false
deriving DecidableEq

namespace Flags

/-- Greediness and Unicode do not change which texts match. -/
def set? (f : Flags) (letter : Char) (on : Bool) : Option Flags :=
  match letter with
  | 'i' => some { f with ignoreCase := on }
  | 'm' => some { f with multiLine := on }
  | 's' => some { f with dotAll := on }
  | 'R' => some { f with carriageReturn := on }
  | 'x' => some { f with spaced := on }
  | 'U' => some f
  | 'u' => some f
  | _ => none

/-- The flags that option letters ask for; other letters ask for nothing. -/
def ofOptions (options : String) : Flags :=
  let letters := options.toList
  { ignoreCase := letters.contains 'i'
    multiLine := letters.contains 'm'
    dotAll := letters.contains 's'
    spaced := letters.contains 'x' }

end Flags

/-- What follows blanks and remarks; a remark runs from `#` to the end of the line. -/
def skipRemarks : (inRemark : Bool) → List Char → List Char
  | _, [] => []
  | true, c :: cs => skipRemarks (c != '\n') cs
  | false, c :: cs =>
    if Text.isBlank c then skipRemarks false cs
    else if c == '#' then skipRemarks true cs
    else c :: cs

def skip (f : Flags) (cs : List Char) : List Char :=
  if f.spaced then skipRemarks false cs else cs

/-- The character that decides whether a hyphen in brackets stands for a range: blanks and the first
`#` after the hyphen are passed over. -/
def afterHyphen (f : Flags) (cs : List Char) : Option Char :=
  if f.spaced then
    match cs.dropWhile Text.isBlank with
    | '#' :: rest =>
      match rest.dropWhile Text.isBlank with
      | c :: _ => some c
      | [] => cs.head?
    | c :: _ => some c
    | [] => cs.head?
  else cs.head?

/-- A letter stands for both its cases when case is ignored. -/
def literal (f : Flags) (c : Char) : Expr :=
  if f.ignoreCase then
    match CharSet.otherCase? (c.toNat, c.toNat) with
    | some other => .set (CharSet.normal (CharSet.single c ++ [other]))
    | none => .char c
  else .char c

def anyChar (f : Flags) : Expr :=
  if f.dotAll then .set CharSet.full
  else if f.carriageReturn then
    .set (CharSet.complement (CharSet.ofChars [('\n', '\n'), ('\r', '\r')]))
  else .set (CharSet.complement (CharSet.single '\n'))

def startAnchor (f : Flags) : Expr :=
  .look (if !f.multiLine then .start else if f.carriageReturn then .breakStart else .lineStart)

def endAnchor (f : Flags) : Expr :=
  .look (if !f.multiLine then .finish else if f.carriageReturn then .breakEnd else .lineEnd)

def charOfNumber? (n : Nat) : Option Char :=
  if n.isValidChar then some (Char.ofNat n) else none

/-- A number of hexadecimal digits, with blanks allowed after each. -/
def readHexDigits (f : Flags) : (digits : Nat) → Nat → List Char → Option (Nat × List Char)
  | 0, n, cs => some (n, cs)
  | digits + 1, n, c :: cs => do
    let d ← Text.hexValue? c
    readHexDigits f digits (n * 16 + d) (skip f cs)
  | _ + 1, _, [] => none

/-- The hexadecimal digits up to a closing brace, of which there must be one. -/
def readHexInBraces (f : Flags) : (fuel : Nat) → Option Nat → List Char →
    Option (Nat × List Char)
  | 0, _, _ => none
  | fuel + 1, n, cs =>
    match skip f cs with
    | [] => none
    | c :: rest =>
      if c == '\x7d' then n.map (fun n => (n, skip f rest))
      else do
        let d ← Text.hexValue? c
        readHexInBraces f fuel (some (n.getD 0 * 16 + d)) rest

def readHexEscape (f : Flags) (digits : Nat) (cs : List Char) : Option (Expr × List Char) := do
  let (n, rest) ← match skip f cs with
    | '\x7b' :: rest => readHexInBraces f (rest.length + 1) none rest
    | rest => readHexDigits f digits 0 rest
  let c ← charOfNumber? n
  return (literal f c, rest)

def isBoundaryLetter (c : Char) : Bool :=
  ('A' ≤ c && c ≤ 'Z') || ('a' ≤ c && c ≤ 'z') || c == '-'

def readBoundaryName (f : Flags) : (fuel : Nat) → List Char → List Char →
    Option (String × List Char)
  | 0, _, _ => none
  | _ + 1, _, [] => none
  | fuel + 1, acc, c :: cs =>
    if isBoundaryLetter c then readBoundaryName f fuel (c :: acc) (skip f cs)
    else if c == '\x7d' then some (String.ofList acc.reverse, cs)
    else none

def boundaryNamed? (name : String) : Option Look :=
  match name with
  | "start" => some .wordStart
  | "end" => some .wordEnd
  | "start-half" => some .wordStartHalf
  | "end-half" => some .wordEndHalf
  | _ => none

/-- What follows `\b`; a brace before anything but a name begins a repetition. -/
def readBoundary (f : Flags) (cs : List Char) : Option (Expr × List Char) :=
  match cs with
  | '\x7b' :: rest =>
    match skip f rest with
    | [] => none
    | c :: more =>
      if isBoundaryLetter c then do
        let (name, rest) ← readBoundaryName f (more.length + 2) [] (c :: more)
        let look ← boundaryNamed? name
        return (.look look, rest)
      else some (.look .wordBoundary, cs)
  | _ => some (.look .wordBoundary, cs)

/-- ASCII characters that stand for themselves after a backslash. -/
def isEscapable (c : Char) : Bool :=
  c.toNat < 0x80 && !c.isAlphanum && c != '<' && c != '>'

def perlSet? (c : Char) : Option CharSet :=
  match c with
  | 'd' => some CharSet.digits
  | 's' => some CharSet.spaces
  | 'w' => some CharSet.word
  | 'D' => some CharSet.digits.complement
  | 'S' => some CharSet.spaces.complement
  | 'W' => some CharSet.word.complement
  | _ => none

/-- What a letter after a backslash stands for, the ones with a longer form apart. -/
def escapedLetter? (f : Flags) (c : Char) : Option Expr :=
  match c with
  | 'a' => some (literal f '\x07')
  | 'f' => some (literal f '\x0c')
  | 't' => some (literal f '\t')
  | 'n' => some (literal f '\n')
  | 'r' => some (literal f '\r')
  | 'v' => some (literal f '\x0b')
  | 'A' => some (.look .start)
  | 'z' => some (.look .finish)
  | 'B' => some (.look .notWordBoundary)
  | '<' => some (.look .wordStart)
  | '>' => some (.look .wordEnd)
  | _ => none

def readEscape (f : Flags) : List Char → Option (Expr × List Char)
  | [] => none
  | c :: cs =>
    if c == 'x' then readHexEscape f 2 cs
    else if c == 'u' then readHexEscape f 4 cs
    else if c == 'U' then readHexEscape f 8 cs
    else if c == 'b' then readBoundary f cs
    else if isEscapable c then some (literal f c, cs)
    else
      match perlSet? c with
      | some s => some (.set s, cs)
      | none => (escapedLetter? f c).map (fun e => (e, cs))

/-- A named set after its opening bracket, such as `:alpha:]`. -/
def readNamedSet (cs : List Char) : Option (CharSet × List Char) :=
  match cs with
  | ':' :: rest =>
    let (negated, rest) := match rest with
      | '^' :: more => (true, more)
      | more => (false, more)
    match rest.dropWhile (· != ':') with
    | ':' :: ']' :: more =>
      (CharSet.named? (String.ofList (rest.takeWhile (· != ':')))).map
        (fun s => (if negated then s.complement else s, more))
    | _ => none
  | _ => none

def readSetItem (f : Flags) : List Char → Option (Expr × List Char)
  | [] => none
  | '\\' :: cs => readEscape f cs
  | c :: cs => some (.char c, cs)

def itemRanges? : Expr → Option CharSet
  | .char c => some (CharSet.single c)
  | .set s => some s
  | _ => none

/-- One item of a set, or a range between two characters. -/
def readSetRange (f : Flags) (cs : List Char) : Option (CharSet × List Char) := do
  let (first, rest) ← readSetItem f cs
  match skip f rest with
  | [] => none
  | '-' :: more =>
    let next := afterHyphen f more
    if next == some ']' || next == some '-' then
      let ranges ← itemRanges? first
      return (ranges, '-' :: more)
    else
      let (last, rest) ← readSetItem f (skip f more)
      match first, last with
      | .char lo, .char hi => if lo ≤ hi then some ([(lo.toNat, hi.toNat)], rest) else none
      | _, _ => none
  | rest =>
    let ranges ← itemRanges? first
    return (ranges, rest)

/-- Sets inside sets and set operations are no patterns. -/
def startsOperator : List Char → Bool
  | '&' :: '&' :: _ => true
  | '-' :: '-' :: _ => true
  | '~' :: '~' :: _ => true
  | _ => false

def readSetItems (f : Flags) : (fuel : Nat) → CharSet → List Char → Option (CharSet × List Char)
  | 0, _, _ => none
  | fuel + 1, ranges, cs =>
    match skip f cs with
    | [] => none
    | ']' :: rest => some (ranges, rest)
    | '[' :: rest => do
      let (s, rest) ← readNamedSet rest
      readSetItems f fuel (ranges ++ s) rest
    | cs =>
      if startsOperator cs then none
      else do
        let (s, rest) ← readSetRange f cs
        readSetItems f fuel (ranges ++ s) rest

/-- Hyphens at the start of a set stand for themselves. -/
def readLeadingHyphens (f : Flags) : (fuel : Nat) → CharSet → List Char → CharSet × List Char
  | 0, ranges, cs => (ranges, cs)
  | fuel + 1, ranges, cs =>
    match cs with
    | '-' :: rest => readLeadingHyphens f fuel (ranges ++ CharSet.single '-') (skip f rest)
    | cs => (ranges, cs)

/-- A set after its opening bracket. Case is folded before the set is negated. -/
def readSet (f : Flags) (cs : List Char) : Option (Expr × List Char) := do
  let (negated, cs) := match skip f cs with
    | '^' :: rest => (true, skip f rest)
    | rest => (false, rest)
  let (ranges, cs) := readLeadingHyphens f cs.length [] cs
  let (ranges, cs) := match ranges, cs with
    | [], ']' :: rest => (CharSet.single ']', skip f rest)
    | ranges, cs => (ranges, cs)
  let (ranges, rest) ← readSetItems f (cs.length + 1) ranges cs
  let s := CharSet.normal ranges
  let s := if f.ignoreCase then s.foldCase else s
  return (.set (if negated then s.complement else s), rest)

/-- A decimal number of at most thirty-two bits, with blanks allowed around it. -/
def readDecimalDigits (f : Flags) : (fuel : Nat) → Option Nat → List Char →
    Option (Nat × List Char)
  | 0, _, _ => none
  | fuel + 1, n, cs =>
    match cs with
    | c :: rest =>
      if c.isDigit then
        readDecimalDigits f fuel (some (n.getD 0 * 10 + (c.toNat - '0'.toNat))) (skip f rest)
      else n.map (fun n => (n, cs))
    | [] => n.map (fun n => (n, []))

def readDecimal (f : Flags) (cs : List Char) : Option (Nat × List Char) := do
  let cs := cs.dropWhile Text.isBlank
  let (n, rest) ← readDecimalDigits f (cs.length + 1) none cs
  if n < UInt32.size then some (n, rest.dropWhile Text.isBlank) else none

/-- The bounds of a counted repetition after its opening brace. -/
def readBounds (f : Flags) (cs : List Char) : Option (Nat × Option Nat × List Char) := do
  let (least, rest) ← readDecimal f (skip f cs)
  let (most, rest) ← match rest with
    | ',' :: rest =>
      match skip f rest with
      | '\x7d' :: more => some (none, '\x7d' :: more)
      | rest => (readDecimal f rest).map (fun (n, rest) => (some n, rest))
    | rest => some (some least, rest)
  match rest with
  | '\x7d' :: rest =>
    if most.any (· < least) then none else some (least, most, skip f rest)
  | _ => none

def dropLazy : List Char → List Char
  | '?' :: cs => cs
  | cs => cs

/-- The flags after a question mark, up to a colon or a closing parenthesis. `dangling` is set right
after a minus sign. -/
def readFlags : (f : Flags) → (negated dangling : Bool) → (seen : List Char) → List Char →
    Option (Flags × List Char)
  | _, _, _, _, [] => none
  | f, negated, dangling, seen, c :: cs =>
    if c == ':' || c == ')' then if dangling then none else some (f, c :: cs)
    else if c == '-' then if negated then none else readFlags f true true seen cs
    else if seen.contains c then none
    else
      match f.set? c (!negated) with
      | some f => readFlags f negated false (c :: seen) cs
      | none => none

def isNameChar (first : Bool) (c : Char) : Bool :=
  if first then c == '_' || Text.isLetter c
  else c == '_' || c == '.' || c == '[' || c == ']' || Text.isLetterOrNumber c

def readGroupName (cs : List Char) : Option (String × List Char) :=
  match cs.takeWhile (· != '>'), cs.dropWhile (· != '>') with
  | c :: name, '>' :: rest =>
    if isNameChar true c && name.all (isNameChar false) then some (String.ofList (c :: name), rest)
    else none
  | _, _ => none

/-- A group that is open: what was read before it, and the flags to return to. -/
structure Frame where
  branches : List Expr
  items : List Expr
  flags : Flags
  wrap : Expr → Expr

/-- A reading in progress. Branches and items are kept last first, and groups are counted. -/
structure Reading where
  branches : List Expr := []
  items : List Expr := []
  flags : Flags
  frames : List Frame := []
  names : List String := []
  groups : Nat := 0

def maxDepth : Nat := 50

def maxBytes : Nat := 10 * 1024 * 1024

namespace Reading

def push (r : Reading) (e : Expr) : Reading :=
  { r with items := e :: r.items }

def close (r : Reading) : Expr :=
  .ofBranches (.ofItems r.items.reverse :: r.branches).reverse

def nextBranch (r : Reading) : Reading :=
  { r with branches := .ofItems r.items.reverse :: r.branches, items := [] }

def enter? (r : Reading) (inner : Flags) (wrap : Expr → Expr) : Option Reading :=
  if maxDepth ≤ r.frames.length then none
  else some { r with
    branches := []
    items := []
    flags := inner
    frames := ⟨r.branches, r.items, r.flags, wrap⟩ :: r.frames }

def enterGroup? (r : Reading) (name : Option String) : Option Reading :=
  { r with groups := r.groups + 1 }.enter? r.flags (.group (r.groups + 1) name)

def leave? (r : Reading) : Option Reading :=
  match r.frames with
  | [] => none
  | frame :: frames =>
    some { r with
      branches := frame.branches
      items := frame.wrap r.close :: frame.items
      flags := frame.flags
      frames := frames }

def repeatLast? (r : Reading) (least : Nat) (most : Option Nat) : Option Reading :=
  match r.items with
  | e :: items => some { r with items := e.times least most :: items }
  | [] => none

def openNamed (r : Reading) (cs : List Char) : Option (Reading × List Char) := do
  let (name, rest) ← readGroupName cs
  if r.names.contains name then none
  let r ← { r with names := name :: r.names }.enterGroup? (some name)
  return (r, rest)

def openGroup (r : Reading) (cs : List Char) : Option (Reading × List Char) :=
  match skip r.flags cs with
  | '?' :: '=' :: _ => none
  | '?' :: '!' :: _ => none
  | '?' :: '<' :: '=' :: _ => none
  | '?' :: '<' :: '!' :: _ => none
  | '?' :: 'P' :: '<' :: rest => r.openNamed rest
  | '?' :: '<' :: rest => r.openNamed rest
  | '?' :: ')' :: _ => none
  | '?' :: rest =>
    match readFlags r.flags false false [] rest with
    | some (flags, ')' :: rest) => some ({ r with flags := flags }, rest)
    | some (flags, _ :: rest) => (r.enter? flags id).map (fun r => (r, rest))
    | _ => none
  | rest => (r.enterGroup? none).map (fun r => (r, rest))

def step (r : Reading) (c : Char) (cs : List Char) : Option (Reading × List Char) :=
  match c with
  | '(' => r.openGroup cs
  | ')' => r.leave?.map (fun r => (r, cs))
  | '|' => some (r.nextBranch, cs)
  | '[' => (readSet r.flags cs).map (fun (e, rest) => (r.push e, rest))
  | '?' => (r.repeatLast? 0 (some 1)).map (fun r => (r, dropLazy cs))
  | '*' => (r.repeatLast? 0 none).map (fun r => (r, dropLazy cs))
  | '+' => (r.repeatLast? 1 none).map (fun r => (r, dropLazy cs))
  | '\x7b' => do
    let (least, most, rest) ← readBounds r.flags cs
    let r ← r.repeatLast? least most
    return (r, dropLazy rest)
  | '\\' => (readEscape r.flags cs).map (fun (e, rest) => (r.push e, rest))
  | '.' => some (r.push (anyChar r.flags), cs)
  | '^' => some (r.push (startAnchor r.flags), cs)
  | '$' => some (r.push (endAnchor r.flags), cs)
  | c => some (r.push (literal r.flags c), cs)

def run : (fuel : Nat) → Reading → List Char → Option Expr
  | 0, _, _ => none
  | fuel + 1, r, cs =>
    match skip r.flags cs with
    | [] => if r.frames.isEmpty then some r.close else none
    | c :: rest =>
      match r.step c rest with
      | some (r, rest) => run fuel r rest
      | none => none

end Reading

/-- The expression a text stands for, if it is a pattern of bearable depth and size. -/
def Expr.ofText? (flags : Flags) (text : String) : Option Expr := do
  let cs := text.toList
  let e ← Reading.run (cs.length + 1) { flags := flags } cs
  if e.depth ≤ maxDepth ∧ e.machineBytes ≤ maxBytes then some e else none

end DocumentStore.Pattern
