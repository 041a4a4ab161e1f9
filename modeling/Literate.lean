import Literate.Interpreter
import Literate.Main
import Literate.Proofs.Code.Scanner
import Literate.Proofs.Directive.Drawable
import Literate.Proofs.Directive.Locality
import Literate.Proofs.Editor.Console
import Literate.Proofs.Editor.Pending
import Literate.Proofs.Editor.Repaint
import Literate.Proofs.Extent.Hull
import Literate.Proofs.Quote.Delimited
import Literate.Proofs.Render.Context
import Literate.Proofs.Render.Hidden
import Literate.Proofs.Session.Evaluated
import Literate.Proofs.Session.Overlays
import Literate.Proofs.Session.Redraw
import Literate.Proofs.Session.Revealed
import Literate.Proofs.Session.Usable
import Literate.Proofs.Settings.Nesting
import Literate.Proofs.Title.Parts
import Literate.Proofs.Title.RoundTrip
import Literate.Proofs.Title.Synchronized
import Literate.Settings.Board
import Literate.Proofs.Code.Comment
import Literate.Proofs.Title.Simultaneous
import Literate.Proofs.Window.Failure
import Literate.Proofs.Window.Resaved
