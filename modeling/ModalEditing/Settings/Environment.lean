import ModalEditing.Path

namespace ModalEditing

structure Environment where
  home : String
  settings : Option String := none
  builtIn : Path

namespace Environment

def builtInPath (home : String) : Except Path.NoHome Path :=
  ((Path.parse "~").expandUser home).map (·.join [".config", "vim-interpreter", "settings.json"])

def settingsPath (e : Environment) : Except Path.NoHome Path :=
  match e.settings.filter (· ≠ "") with
  | some s => (Path.parse s).expandUser e.home
  | none => .ok e.builtIn

end Environment
end ModalEditing
