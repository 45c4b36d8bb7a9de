import ServerUi.Blueprint
import ServerUi.Log.Notice
import ServerUi.Schema.LoadError

/-!
# ServerUi.Log.Watch — the notices of loading and viewing

Each function here gives the notices of the computation it is named for, in the order in which they
arise.  The computations themselves know nothing of them.
-/

namespace ServerUi

/-- The notices of finding out a document's shape. -/
def Schema.Kind.notices (v : Value) : List Notice :=
  if isAmbiguous v then [.ambiguousSchema] else []

/-- The notices of loading a schema from text. -/
def Schema.textNotices (text : String) : List Notice :=
  match Json.read text with
  | .ok v => Schema.Kind.notices v
  | .error _ => []

/-- The notices of reading a schema whose text may be part of a larger one: what follows the value
does not matter. -/
def Schema.embeddedNotices (text : String) : List Notice :=
  let reader : Json.Reader Empty Value := Json.Reader.ordered Json.Reader.depthLimit
  match reader (Json.Cursor.ofString text) with
  | .ok v _ => Schema.Kind.notices v
  | .error .. => []

/-- The notice of looking at a gate. -/
def Gate.notices (g : Gate) : List Notice :=
  match g.operator with
  | .unknown operator => [.unknownOperator operator g.path]
  | _ => []

mutual

/-- The notices of making a blueprint: a node's own handlers before its content. -/
def Node.blueprintNotices : Node → List Notice
  | ⟨component, _, content, _, _, handlers⟩ =>
    ((handlers.getD []).filter (!·.1.isWired)).map
      (fun (event, _) => .unwiredEvent component event) ++ content.blueprintNotices

def Content.blueprintNotices : Content → List Notice
  | .nodes nodes => blueprintsNotices nodes
  | _ => []

def blueprintsNotices : List Node → List Notice
  | [] => []
  | n :: rest => n.blueprintNotices ++ blueprintsNotices rest

end

mutual

/-- The notices of viewing a blueprint under an identity: its content before itself. -/
def Blueprint.viewNotices (registry : Registry) (document : Value) :
    Blueprint → String → List Notice
  | ⟨component, _, gate, _, _, content⟩, key =>
    gate.toList.flatMap Gate.notices ++
      if gate.all (·.opens document) then
        if registry.contains component then
          (if isChildless component then [] else content.viewNotices registry document key) ++
            [.viewed component key]
        else [.unknownComponent component key]
      else [.gateClosed component key]

def BlueprintContent.viewNotices (registry : Registry) (document : Value) :
    BlueprintContent → String → List Notice
  | .nodes nodes, parent =>
    siblingNotices registry document parent (givenKeys nodes) nodes 0
  | _, _ => []

/-- The notices of viewing siblings from `index` on. -/
def siblingNotices (registry : Registry) (document : Value) (parent : String)
    (taken : List String) : List Blueprint → Nat → List Notice
  | [], _ => []
  | b :: rest, index =>
    b.viewNotices registry document (b.key.getD (positionalKey parent index taken)) ++
      siblingNotices registry document parent taken rest (index + 1)

end

/-- The notices of making a node's blueprint and viewing it under an identity. -/
def Node.viewNotices (registry : Registry) (document : Value) (n : Node) (key : String) :
    List Notice :=
  n.blueprintNotices ++ n.blueprint.viewNotices registry document key

end ServerUi
