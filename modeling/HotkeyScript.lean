import HotkeyScript.Completion
import HotkeyScript.Main
import HotkeyScript.Proofs.Blanks
import HotkeyScript.Proofs.Segments
import HotkeyScript.Proofs.Skeleton
import HotkeyScript.Proofs.Reflow
import HotkeyScript.Proofs.Passes
import HotkeyScript.Proofs.Stability
import HotkeyScript.Proofs.Conservation
import HotkeyScript.Proofs.HiddenText
import HotkeyScript.Proofs.Nesting
import HotkeyScript.Proofs.Runs
import HotkeyScript.Proofs.DirectiveLines
import HotkeyScript.Proofs.Recheck
import HotkeyScript.Proofs.Restyle
import HotkeyScript.Proofs.Rescan
import HotkeyScript.Proofs.Modes
import HotkeyScript.Proofs.Layers
import HotkeyScript.Proofs.Workers
import HotkeyScript.Proofs.Paths
import HotkeyScript.Proofs.Precedence
import HotkeyScript.Proofs.Selection
import HotkeyScript.Proofs.Spelling
import HotkeyScript.Proofs.HomeBetween
import HotkeyScript.Proofs.Grammar
import HotkeyScript.Proofs.Frame
import HotkeyScript.Proofs.Counters
import HotkeyScript.Proofs.Limits
import HotkeyScript.Proofs.Outline
import HotkeyScript.Proofs.Agreement
import HotkeyScript.Proofs.SettingsFile
import HotkeyScript.Proofs.Search
import HotkeyScript.Proofs.Invocation
import HotkeyScript.Proofs.Arithmetic
