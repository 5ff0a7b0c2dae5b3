namespace MarketFees

structure Environment where
  bindings : List (String × String)

/-- The value of a variable. An empty name and a name with an equals sign are names of none. -/
def Environment.value? (env : Environment) (name : String) : Option String :=
  if name.isEmpty || name.toList.contains '=' then none else env.bindings.lookup name

end MarketFees
