import ModalEditing.Journal.Report
import ModalEditing.Keymap.Basic

namespace ModalEditing.Keymap

def registerSpan (t : Keymap) (b : Binding) : Span :=
  { name := "keymaps::register", logger := t.logger, component := .named "keymaps",
    metadata := [("keys", .string b.signature), ("mode", .string b.group.name)] }

def registerReports (t : Keymap) (b : Binding) (replace : Bool) : List Report :=
  match t.register b replace with
  | .ok _ => (t.registerSpan b).around [] none
  | .error e =>
    (t.registerSpan b).around [("conflicts", .string (",".intercalate (e.conflicts.map Binding.signature)))]
      (some e.message)

end ModalEditing.Keymap
