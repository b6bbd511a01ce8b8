import ModalEditing.Main
import ModalEditing.Proofs.Bus.Unsubscribing
import ModalEditing.Proofs.Interpreter.Failure
import ModalEditing.Proofs.Interpreter.Interference
import ModalEditing.Proofs.Interpreter.Pending
import ModalEditing.Proofs.Interpreter.Recovery
import ModalEditing.Proofs.Key.Claiming
import ModalEditing.Proofs.Keymap.Overlay
import ModalEditing.Proofs.Registers
import ModalEditing.Proofs.Screen.Routing
import ModalEditing.Proofs.Settings.Persisting
import ModalEditing.Proofs.Settings.Refusing
import ModalEditing.Proofs.Surface.LineEdits
import ModalEditing.Proofs.Surface.Pasting
import ModalEditing.Proofs.Surface.StayingInside
import ModalEditing.Proofs.Surface.TwoDeletions
import ModalEditing.Proofs.Surface.WordMotions
