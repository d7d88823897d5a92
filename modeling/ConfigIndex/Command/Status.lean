import ConfigIndex.Command.Markup
import ConfigIndex.Command.Wrap
import ConfigIndex.Log.Session

/-!
Short lines that tell how a run went.
-/

namespace ConfigIndex.Command

def statusMark (style : String) : String :=
  match style with
  | "success" => "[green]\u2713[/green] "
  | "error" => "[red]\u2717[/red] "
  | "warning" => "[yellow]![/yellow] "
  | "info" => "  "
  | _ => ""

def screenWidth : Nat := 80

def statusText (message style : String) : Except MarkupFault String :=
  (shownMarkup (statusMark style ++ message).toList).map (wrap screenWidth)

def statusEvent (message style : String) : Event :=
  ⟨.debug, "status", [("message", .text message), ("style", .text style)]⟩

def status (message style : String) : Except MarkupFault (List Action) :=
  (statusText message style).map fun text => [.say .stderr text, .log (statusEvent message style)]

end ConfigIndex.Command
