import BlockCanvas.Sandbox.Tool.Condition
import BlockCanvas.Sandbox.Tool.Digests
import BlockCanvas.Sandbox.Tool.Edit
import BlockCanvas.Sandbox.Tool.Lines
import BlockCanvas.Sandbox.Tool.Search
import BlockCanvas.Sandbox.Tool.Translate
import BlockCanvas.Sandbox.Tool.Tree

/-!
The programs by name.
-/
namespace BlockCanvas.Sandbox.Tool

def answer (status : Nat) : Tool := fun s _ =>
  { s.idle with status }

def table : List (String × Tool) :=
  [("[", condition .program true), ("base64", base64), ("basename", basename), ("cat", cat),
    ("chmod", chmod), ("cp", cp), ("cut", cut), ("dirname", dirname), ("echo", echoPlain),
    ("egrep", grep true false), ("expr", expr), ("false", answer 1), ("fgrep", grep false true),
    ("fold", fold), ("grep", grep false false), ("head", head), ("ls", ls), ("md5sum", md5sum),
    ("mkdir", mkdir), ("mv", mv), ("nl", nl), ("od", od), ("paste", paste), ("printenv", printenv),
    ("printf", printf .program), ("pwd", pwd .program), ("rev", rev), ("rm", rm), ("rmdir", rmdir),
    ("sed", sed), ("seq", seq), ("sleep", sleep), ("sort", sort), ("sync", answer 0),
    ("tac", tac), ("tail", tail), ("tee", tee), ("test", condition .program false),
    ("touch", touch), ("tr", tr), ("true", answer 0), ("uniq", uniq), ("wc", wc), ("yes", yes)]

def builtins : List (String × Tool) :=
  [("[", condition .builtin true), ("echo", echo), ("false", answer 1), ("printf", printf .builtin),
    ("pwd", pwd .builtin), ("test", condition .builtin false), ("true", answer 0)]

end BlockCanvas.Sandbox.Tool
