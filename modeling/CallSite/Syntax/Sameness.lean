import CallSite.Syntax.Declaration

/-!
# When two programs are the same

Two programs are the same when they have the same shape, names, literals and positions throughout.
Floating-point literals are compared as numbers: the two zeros are the same, and a literal that is
not a number differs from every literal, itself included.
-/

namespace CallSite

namespace FloatLiteral

/-- The bits without the sign. -/
def magnitude (literal : FloatLiteral) : UInt64 :=
  literal.bits &&& 0x7fffffffffffffff

def isNaN (literal : FloatLiteral) : Bool :=
  0x7ff0000000000000 < literal.magnitude

def same (left right : FloatLiteral) : Bool :=
  !left.isNaN && !right.isNaN &&
    (left.bits == right.bits || left.magnitude == 0 && right.magnitude == 0)

end FloatLiteral

mutual

def Expr.same : Expr → Expr → Bool
  | .var p a, .var q b => p == q && a == b
  | .int p a, .int q b => p == q && a == b
  | .float p a, .float q b => p == q && a.same b
  | .bool p a, .bool q b => p == q && a == b
  | .string p a, .string q b => p == q && a == b
  | .list p as, .list q bs => p == q && Expr.sameList as bs
  | .pointer p a, .pointer q b => p == q && a == b
  | .binary p f a c, .binary q g b d => p == q && f == g && a.same b && c.same d
  | .unary p f a, .unary q g b => p == q && f == g && a.same b
  | .call p a as, .call q b bs => p == q && a.same b && Expr.sameList as bs
  | .index p a as, .index q b bs => p == q && a.same b && Expr.sameList as bs
  | .lambda p as ss, .lambda q bs ts => p == q && Param.sameList as bs && Stmt.sameList ss ts
  | .append p a as, .append q b bs => p == q && a.same b && Expr.sameList as bs
  | .len p a, .len q b => p == q && a.same b
  | .chop p a, .chop q b => p == q && a.same b
  | .chomp p a, .chomp q b => p == q && a.same b
  | .matching p n a, .matching q m b => p == q && n == m && a.same b
  | _, _ => false
termination_by structural left => left

def Expr.sameList : List Expr → List Expr → Bool
  | [], [] => true
  | a :: as, b :: bs => a.same b && Expr.sameList as bs
  | _, _ => false
termination_by structural left => left

def Expr.sameOption : Option Expr → Option Expr → Bool
  | none, none => true
  | some a, some b => a.same b
  | _, _ => false
termination_by structural left => left

def Param.same : Param → Param → Bool
  | ⟨name, a⟩, ⟨other, b⟩ => name == other && Expr.sameOption a b
termination_by structural left => left

def Param.sameList : List Param → List Param → Bool
  | [], [] => true
  | a :: as, b :: bs => a.same b && Param.sameList as bs
  | _, _ => false
termination_by structural left => left

def Range.same : Range → Range → Bool
  | .elements as, .elements bs => Expr.sameList as bs
  | .value a, .value b => a.same b
  | .span a c, .span b d => a.same b && c.same d
  | _, _ => false
termination_by structural left => left

def Stmt.same : Stmt → Stmt → Bool
  | .expr p a, .expr q b => p == q && a.same b
  | .assign p t i f a, .assign q u j g b =>
    p == q && t == u && Expr.sameOption i j && f == g && a.same b
  | .ifElse p cs ss us, .ifElse q ds ts vs =>
    p == q && Expr.sameList cs ds && Stmt.sameList ss ts && Stmt.sameList us vs
  | .ret p a, .ret q b => p == q && Expr.sameOption a b
  | .put p a, .put q b => p == q && a.same b
  | .push p a c, .push q b d => p == q && a.same b && c.same d
  | .loop p ss, .loop q ts => p == q && Stmt.sameList ss ts
  | .forEach p n r ss, .forEach q m s ts =>
    p == q && n == m && r.same s && Stmt.sameList ss ts
  | .breakWhen p cs, .breakWhen q ds => p == q && Expr.sameList cs ds
  | .nextWhen p cs, .nextWhen q ds => p == q && Expr.sameList cs ds
  | _, _ => false
termination_by structural left => left

def Stmt.sameList : List Stmt → List Stmt → Bool
  | [], [] => true
  | a :: as, b :: bs => a.same b && Stmt.sameList as bs
  | _, _ => false
termination_by structural left => left

end

/-- Lists of one length whose members are related pairwise. -/
def sameLists {α : Type} (same : α → α → Bool) : List α → List α → Bool
  | [], [] => true
  | a :: as, b :: bs => same a b && sameLists same as bs
  | _, _ => false

def Function.same (left right : Function) : Bool :=
  left.name == right.name && Param.sameList left.params right.params &&
    Stmt.sameList left.body right.body && left.position == right.position

def Pattern.same (left right : Pattern) : Bool :=
  left.name == right.name && left.target == right.target &&
    Expr.sameList left.conditions right.conditions && Expr.sameList left.returns right.returns &&
    left.position == right.position

def Program.same (left right : Program) : Bool :=
  sameLists Function.same left.functions right.functions &&
    sameLists Pattern.same left.patterns right.patterns &&
    Stmt.sameList left.main.body right.main.body && left.main.position == right.main.position

end CallSite
