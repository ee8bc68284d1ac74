import BuildRules.Config.Error

namespace BuildRules

/-- Items by name, the names in order, and the numbers that are taken. -/
structure Register (α : Type) where
  index : Entries String α
  order : List String
  numbers : List Int

namespace Register

variable {α : Type}

def empty : Register α := ⟨[], [], []⟩

def get? (register : Register α) (name : String) : Option α := register.index.find? name

/-- The items in order, if every name is found. -/
def list? (register : Register α) : Option (List α) := register.order.mapM register.get?

end Register

/-- Why a register does not take an item. -/
inductive Refusal where
  | forbidden
  | nameTaken
  | numberTaken

/-- What the calls of a register file, and under what. -/
structure Filing (γ α : Type) where
  item : γ → α
  name : α → String
  /-- Items with a number have it to themselves. -/
  number? : α → Option Int
  forbidden : γ → Bool
  error : Refusal → α → ConfigError

namespace Filing

variable {γ α : Type}

/-- The checks of a call, against the names and the numbers that are taken. -/
def check (filing : Filing γ α) (named : String → Bool) (numbered : Int → Bool) (call : γ) :
    Except PolicyError Unit :=
  let item := filing.item call
  if filing.forbidden call then .error (.raised (filing.error .forbidden item))
  else if named (filing.name item) then .error (.raised (filing.error .nameTaken item))
  else if (filing.number? item).any numbered then .error (.raised (filing.error .numberTaken item))
  else .ok ()

/-- A call is checked first, and then its item goes to each container. -/
def add (filing : Filing γ α) (call : γ) : ExceptT PolicyError (StateM (Register α)) Unit := do
  let register ← get
  liftM (filing.check register.index.has register.numbers.contains call)
  let item := filing.item call
  modify fun register => { register with index := register.index.insert (filing.name item) item }
  modify fun register => { register with order := register.order ++ [filing.name item] }
  modify fun register =>
    { register with numbers := register.numbers ++ (filing.number? item).toList }

end Filing
end BuildRules
