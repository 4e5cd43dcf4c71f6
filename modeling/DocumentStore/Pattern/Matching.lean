import DocumentStore.Pattern.Reader

/-! Matching by derivatives. An expression is brought to a core form with two-fold sequences and
choices. The derivatives of a core expression by a character are the expressions that match what may
follow that character, and a text matches if at some position one of the expressions reached so far
may end there. -/

namespace DocumentStore.Pattern

structure Context where
  before : Option Char
  after : Option Char

def isWordChar (c : Char) : Bool :=
  c.isAlphanum || c == '_'

def Context.wordBefore (ctx : Context) : Bool := ctx.before.any isWordChar

def Context.wordAfter (ctx : Context) : Bool := ctx.after.any isWordChar

/-- A carriage return and the line feed after it are one line break. -/
def Look.holds (ctx : Context) : Look → Bool
  | start => ctx.before.isNone
  | finish => ctx.after.isNone
  | lineStart => ctx.before.all (· == '\n')
  | lineEnd => ctx.after.all (· == '\n')
  | breakStart =>
    ctx.before.all (· == '\n') || (ctx.before == some '\r' && ctx.after != some '\n')
  | breakEnd =>
    ctx.after.all (· == '\r') || (ctx.after == some '\n' && ctx.before != some '\r')
  | wordBoundary => ctx.wordBefore != ctx.wordAfter
  | notWordBoundary => ctx.wordBefore == ctx.wordAfter
  | wordStart => !ctx.wordBefore && ctx.wordAfter
  | wordEnd => ctx.wordBefore && !ctx.wordAfter
  | wordStartHalf => !ctx.wordBefore
  | wordEndHalf => !ctx.wordAfter

inductive Core where
  | fail
  | empty
  | set (s : CharSet)
  | look (l : Look)
  | seq (a b : Core)
  | either (a b : Core)
  | repeated (a : Core) (least : Nat) (most : Option Nat)
deriving DecidableEq

namespace Core

mutual

def ofExpr : Expr → Core
  | .empty => empty
  | .char c => set (CharSet.single c)
  | .set s => set s
  | .look l => look l
  | .repeated e least most => repeated (ofExpr e) least most
  | .group _ _ e => ofExpr e
  | .concat es => ofItems es
  | .choice es => ofBranches es

def ofItems : List Expr → Core
  | [] => empty
  | e :: es => seq (ofExpr e) (ofItems es)

def ofBranches : List Expr → Core
  | [] => fail
  | e :: es => either (ofExpr e) (ofBranches es)

end

def nullable (ctx : Context) : Core → Bool
  | fail => false
  | empty => true
  | set _ => false
  | look l => l.holds ctx
  | seq a b => nullable ctx a && nullable ctx b
  | either a b => nullable ctx a || nullable ctx b
  | repeated a least _ => least == 0 || nullable ctx a

def followedBy : Core → Core → Core
  | empty, b => b
  | a, empty => a
  | a, b => seq a b

/-- A repetition with one round less. Rounds that may be empty here can be left out. -/
def fewer (a : Core) (least : Nat) (most : Option Nat) : Core :=
  if most = some 1 then empty else repeated a (least - 1) (most.map (· - 1))

/-- What may follow a character at a position. -/
def derivatives (ctx : Context) (c : Char) : Core → List Core
  | fail => []
  | empty => []
  | set s => if s.contains c then [empty] else []
  | look _ => []
  | seq a b =>
    (derivatives ctx c a).map (fun a' => followedBy a' b) ++
      (if nullable ctx a then derivatives ctx c b else [])
  | either a b => derivatives ctx c a ++ derivatives ctx c b
  | repeated a least most =>
    if most = some 0 then []
    else
      let rest := fewer a (if nullable ctx a then 0 else least) most
      (derivatives ctx c a).map (fun a' => followedBy a' rest)

/-- Whether a match that begins at this position or is under way can be completed. -/
def search (start : Core) : (before : Option Char) → List Core → List Char → Bool
  | before, reached, [] => (start :: reached).any (nullable ⟨before, none⟩)
  | before, reached, c :: cs =>
    let ctx : Context := ⟨before, some c⟩
    let reached := start :: reached
    reached.any (nullable ctx) ||
      search start (some c) (reached.flatMap (derivatives ctx c)).eraseDups cs

end Core

end Pattern

structure Pattern where
  core : Pattern.Core
deriving DecidableEq

namespace Pattern

def ofText? (flags : Flags) (text : String) : Option Pattern :=
  (Expr.ofText? flags text).map (fun e => ⟨Core.ofExpr e⟩)

def isMatch (p : Pattern) (text : String) : Bool :=
  Core.search p.core none [] text.toList

end Pattern

end DocumentStore
