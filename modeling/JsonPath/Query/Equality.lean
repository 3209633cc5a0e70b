import JsonPath.Query

/-!
Equality and hashes of queries. Two queries are the same if they were written with the same tokens,
up to blanks, parentheses and separators; where the tokens stand does not count. The values of their
literals are compared as well, but across types: a truth value is the same as the number 0 or 1.
-/

namespace JsonPath

def Literal.number? : Literal → Option Number
  | boolean b => some (.integer (if b then 1 else 0))
  | number n => some n
  | _ => none

def Literal.same (a b : Literal) : Bool :=
  match a.number?, b.number? with
  | some m, some n => m.same n
  | none, none => a == b
  | _, _ => false

mutual

def Expr.same : Expr → Expr → Bool
  | .literal t a, .literal u b => t.same u && a.same b
  | .negation t a, .negation u b => t.same u && a.same b
  | .conjunction t a c, .conjunction u b d => t.same u && a.same b && c.same d
  | .disjunction t a c, .disjunction u b d => t.same u && a.same b && c.same d
  | .comparison t a o c, .comparison u b p d => t.same u && a.same b && o == p && c.same d
  | .relative t a, .relative u b => t.same u && sameSegments a b
  | .absolute t a, .absolute u b => t.same u && sameSegments a b
  | .call t a c, .call u b d => t.same u && a == b && sameArguments c d
  | _, _ => false

def sameArguments : List Expr → List Expr → Bool
  | [], [] => true
  | a :: as, b :: bs => a.same b && sameArguments as bs
  | _, _ => false

def Selector.same : Selector → Selector → Bool
  | .name t a, .name u b => t.same u && a == b
  | .index t a, .index u b => t.same u && a == b
  | .wildcard t, .wildcard u => t.same u
  | .slice t a b c, .slice u d e f => t.same u && a == d && b == e && c == f
  | .filter t a, .filter u b => t.same u && a.same b
  | _, _ => false

def sameSelectors : List Selector → List Selector → Bool
  | [], [] => true
  | a :: as, b :: bs => a.same b && sameSelectors as bs
  | _, _ => false

def Segment.same : Segment → Segment → Bool
  | .child t a, .child u b => t.same u && sameSelectors a b
  | .descendant t a, .descendant u b => t.same u && sameSelectors a b
  | _, _ => false

def sameSegments : List Segment → List Segment → Bool
  | [], [] => true
  | a :: as, b :: bs => a.same b && sameSegments as bs
  | _, _ => false

end

def Query.same (a b : Query) : Bool := sameSegments a b

/-- A way to hash what queries are made of. Literals that are the same have one hash, and the hash
of a tuple depends on those of its items only. -/
structure Hashing (Hash : Type) where
  kind : TokenKind → Hash
  text : Text → Hash
  integer : Int → Hash
  absent : Hash
  literal : Literal → Hash
  query : Hash
  tuple : List Hash → Hash
  literal_eq : ∀ {a b : Literal}, a.same b = true → literal a = literal b

variable {Hash : Type} (hashing : Hashing Hash)

def Hashing.bound (bound? : Option Int) : Hash := bound?.elim hashing.absent hashing.integer

def Token.hash (token : Token) : Hash :=
  hashing.tuple [hashing.kind token.kind, hashing.text token.text]

mutual

def Expr.hash : Expr → Hash
  | .literal t a => hashing.tuple [t.hash hashing, hashing.literal a]
  | .negation t a => hashing.tuple [t.hash hashing, a.hash]
  | .conjunction t a b => hashing.tuple [t.hash hashing, a.hash, b.hash]
  | .disjunction t a b => hashing.tuple [t.hash hashing, a.hash, b.hash]
  | .comparison t a o b =>
    hashing.tuple [t.hash hashing, a.hash, hashing.text o.symbol, b.hash]
  | .relative t a =>
    hashing.tuple [t.hash hashing, hashing.tuple [hashing.query, hashing.tuple (segmentHashes a)]]
  | .absolute t a =>
    hashing.tuple [t.hash hashing, hashing.tuple [hashing.query, hashing.tuple (segmentHashes a)]]
  | .call t name a =>
    hashing.tuple [t.hash hashing, hashing.text name, hashing.tuple (argumentHashes a)]

def argumentHashes : List Expr → List Hash
  | [] => []
  | a :: as => a.hash :: argumentHashes as

def Selector.hash : Selector → Hash
  | .name t a => hashing.tuple [t.hash hashing, hashing.text a]
  | .index t a => hashing.tuple [t.hash hashing, hashing.integer a]
  | .wildcard t => hashing.tuple [t.hash hashing]
  | .slice t a b c =>
    hashing.tuple [t.hash hashing, hashing.bound a, hashing.bound b, hashing.bound c]
  | .filter t a => hashing.tuple [t.hash hashing, a.hash]

def selectorHashes : List Selector → List Hash
  | [] => []
  | a :: as => a.hash :: selectorHashes as

def Segment.hash : Segment → Hash
  | .child t a => hashing.tuple [t.hash hashing, hashing.tuple (selectorHashes a)]
  | .descendant t a => hashing.tuple [t.hash hashing, hashing.tuple (selectorHashes a)]

def segmentHashes : List Segment → List Hash
  | [] => []
  | a :: as => a.hash :: segmentHashes as

end

def Query.hash (query : Query) : Hash :=
  hashing.tuple [hashing.query, hashing.tuple (segmentHashes hashing query)]

def Query.distinct [DecidableEq Hash] (a b : Query) : Nat :=
  if a.hash hashing = b.hash hashing ∧ a.same b then 1 else 2

end JsonPath
