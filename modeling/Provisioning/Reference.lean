namespace Provisioning

inductive AccountKind where
  | asset | liability | equity | income | expense
  deriving DecidableEq, Repr

def AccountKind.ofCode? : Int → Option AccountKind
  | 1 => some asset
  | 2 => some liability
  | 3 => some equity
  | 4 => some income
  | 5 => some expense
  | _ => none

def AccountKind.code : AccountKind → Int
  | asset => 1
  | liability => 2
  | equity => 3
  | income => 4
  | expense => 5

def AccountKind.name : AccountKind → String
  | asset => "ASSET"
  | liability => "LIABILITY"
  | equity => "EQUITY"
  | income => "INCOME"
  | expense => "EXPENSE"

structure Category where
  id : Int
  name : String
  description : Option String
  deriving DecidableEq, Repr

structure Account where
  id : Int
  name : String
  glCode : String
  kind : AccountKind
  deriving DecidableEq, Repr

def Account.isLiability (a : Account) : Bool := a.kind = .liability

def Account.isExpense (a : Account) : Bool := a.kind = .expense

structure Product where
  id : Int
  name : String
  deriving DecidableEq, Repr

end Provisioning
