import MetricRegistry.Core.Instances

/-! The report a program prints when it stops on an error: `Error: ` and the message, then the
causes under `Caused by:`, numbered when there are two or more. -/

namespace MetricRegistry.Text

/-- `s` padded with spaces on the left to `width` characters. -/
def padLeft (s : String) (width : Nat) : String :=
  String.ofList (List.replicate (width - s.length) ' ') ++ s

/-- `s` padded with spaces on the right to `width` characters. -/
def padRight (s : String) (width : Nat) : String :=
  s ++ String.ofList (List.replicate (width - s.length) ' ')

/-- One cause: the first line after its label, the following lines after `rest`. -/
def causeText (label rest : String) (message : String) : String :=
  match message.splitOn "\n" with
  | [] => label
  | first :: more => label ++ first ++ String.join (more.map fun line => "\n" ++ rest ++ line)

/-- The causes under `Caused by:`, numbered when there are several. -/
def causesText (causes : List String) : String :=
  match causes with
  | [one] => "\n" ++ causeText "    " "    " one
  | _ => String.join (causes.zipIdx.map fun (c, n) =>
      "\n" ++ causeText (padLeft (toString n) 5 ++ ": ") "       " c)

/-- The report of an error given as its message followed by its causes, with a final newline. -/
def failureReport (chain : List String) : String :=
  match chain with
  | [] => "Error: \n"
  | [message] => "Error: " ++ message ++ "\n"
  | message :: causes => "Error: " ++ message ++ "\n\nCaused by:" ++ causesText causes ++ "\n"

end MetricRegistry.Text
