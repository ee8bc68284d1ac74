namespace BuildRules.Sorted

variable {α ε : Type}

/-- Place an item before the first one that it does not follow. -/
def insert (le : α → α → Bool) (item : α) : List α → List α
  | [] => [item]
  | head :: rest => if le item head then item :: head :: rest else head :: insert le item rest

/-- Items in order; equal ones keep their places. -/
def sort (le : α → α → Bool) : List α → List α
  | [] => []
  | head :: rest => insert le head (sort le rest)

/-- Place an item before the first one that comes strictly after it. -/
def insertChecked (before : α → α → Except ε Bool) (item : α) : List α → Except ε (List α)
  | [] => .ok [item]
  | head :: rest => do
    if ← before item head then return item :: head :: rest
    else return head :: (← insertChecked before item rest)

/-- Items in order, or the reason why two of them have none. -/
def sortChecked (before : α → α → Except ε Bool) (items : List α) : Except ε (List α) :=
  items.foldlM (fun sorted item => insertChecked before item sorted) []

end BuildRules.Sorted
