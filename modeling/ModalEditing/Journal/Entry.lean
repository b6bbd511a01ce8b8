import ModalEditing.Json.Basic

namespace ModalEditing.Journal

abbrev ConfigId := Nat

def configName (n : ConfigId) : String := "config" ++ toString n

/-- One call on the logging backend. -/
inductive Entry
  | newConfig (config : ConfigId)
  | setting (config : ConfigId) (name : String) (value : Json)
  | newLogger (logger : String) (config : ConfigId)
  | addContext (logger key value : String)
  | removeContext (logger key : String)
  | enterComponent (logger component : String)
  | exitComponent (logger component : String)
  | enterProfile (logger name : String)
  | exitProfile (logger name : String)
  | message (logger level text : String) (data : List (String × String))
  | trace (logger text : String)

end ModalEditing.Journal
