import SceneScript.Build.Program
import SceneScript.Main
import SceneScript.Text.Utf8
import SceneScript.Proofs.Build.Buildable
import SceneScript.Proofs.Build.Denotes
import SceneScript.Proofs.Build.Flags
import SceneScript.Proofs.Build.Log
import SceneScript.Proofs.Build.Moments
import SceneScript.Proofs.Build.Pruned
import SceneScript.Proofs.Build.Writing
import SceneScript.Proofs.Config.Overlay
import SceneScript.Proofs.Disk.Frame
import SceneScript.Proofs.Document.Format
import SceneScript.Proofs.Document.Layout
import SceneScript.Proofs.Document.LineFaults
import SceneScript.Proofs.Document.Truncated
import SceneScript.Proofs.Document.Numbers
import SceneScript.Proofs.Lint.Gate
import SceneScript.Proofs.Preview.Outline
