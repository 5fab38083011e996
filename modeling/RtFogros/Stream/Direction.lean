import RtFogros.Fib.Structs

/-!
# Directions

The texts by which `routing_manager.rs` tells the two ends of a stream apart, with the functions
that read them: which texts name a direction, whatever their case, which direction is the other
one's, and where the code panics because the text names none.
-/

namespace RtFogros

/-- `to_uppercase`; beside the ASCII letters, the letters whose upper case is ASCII. -/
def upperChar (c : Char) : List Char :=
  match c with
  | 'ß' => ['S', 'S']
  | 'ı' => ['I']
  | 'ſ' => ['S']
  | 'ﬀ' => ['F', 'F']
  | 'ﬁ' => ['F', 'I']
  | 'ﬂ' => ['F', 'L']
  | 'ﬃ' => ['F', 'F', 'I']
  | 'ﬄ' => ['F', 'F', 'L']
  | 'ﬅ' | 'ﬆ' => ['S', 'T']
  | c => [c.toUpper]

def toUppercase (s : String) : String := String.ofList (s.toList.flatMap upperChar)

/-- `none` is the panic. -/
def directionStrToConnectionType (connectionType : String) : Option FibConnectionType :=
  match toUppercase connectionType with
  | "PUBSUB-SENDER" => some .sender
  | "PUBSUB-RECEIVER" => some .receiver
  | "REQUEST-SENDER" => some .requestSender
  | "REQUEST-RECEIVER" => some .requestReceiver
  | "RESPONSE-SENDER" => some .responseSender
  | "RESPONSE-RECEIVER" => some .responseReceiver
  | _ => none

theorem toUppercase_append (s t : String) :
    toUppercase (s ++ t) = toUppercase s ++ toUppercase t := by
  unfold toUppercase
  rw [String.toList_append, List.flatMap_append, String.ofList_append]

theorem directionStrToConnectionType_isSome (connectionType : String) :
    (directionStrToConnectionType connectionType).isSome ↔
      toUppercase connectionType ∈
        ["PUBSUB-SENDER", "PUBSUB-RECEIVER", "REQUEST-SENDER", "REQUEST-RECEIVER",
          "RESPONSE-SENDER", "RESPONSE-RECEIVER"] := by
  unfold directionStrToConnectionType
  split <;> simp_all

def directionMapping : List (String × String) :=
  [("request-receiver", "request-sender"),
    ("request-sender", "request-receiver"),
    ("response-sender", "response-receiver"),
    ("response-receiver", "response-sender"),
    ("pubsub-sender", "pubsub-receiver"),
    ("pubsub-receiver", "pubsub-sender")]

/-- `to_lowercase` as far as it can yield a key of the mapping: no letter beyond ASCII has
a lower case that occurs in one.  `none` is the panic. -/
def flipDirection (direction : String) : Option String :=
  directionMapping.lookup (String.ofList (direction.toList.map Char.toLower))

example : flipDirection "PubSub-sender" = some "pubsub-receiver" := by decide

end RtFogros
