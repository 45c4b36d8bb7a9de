import ServerUi.Component.Basic
import ServerUi.Binding.Template

/-!
# ServerUi.Component.Builtin — the built-in components

Each built-in component is a host tag with a class of its own, put before the class of the node.
A few look at their props: a heading picks its tag by level, checkboxes and switches are inputs of
that type, switches and alerts have a role.
-/

namespace ServerUi

namespace Component

/-- The props with a class of the component before the `className` of the node. -/
def styled (props : Members) (class_ : String) : Members :=
  let extra := match Dict.get? "className" props with
    | some (.str s) => Text.trim s.toList
    | _ => []
  let text := if extra = [] then class_ else class_ ++ " " ++ String.ofList extra
  Dict.insert "className" (.str text) props

/-- The element of a node: its key, props and handlers, and its children unless it is childless. -/
def element (input : Input) (tag class_ : String) : Element :=
  { component := input.component
    tag
    key := some input.key
    attrs := styled input.props class_
    handlers := input.handlers
    children := if isChildless input.component then [] else input.children.getD []
    void := isChildless input.component }

/-- The element with an attribute. -/
def setAttr (e : Element) (name : String) (v : Value) : Element :=
  { e with attrs := Dict.insert name v e.attrs }

/-- The element with an attribute, unless it has that attribute already. -/
def setAttrIfAbsent (e : Element) (name : String) (v : Value) : Element :=
  if Dict.contains name e.attrs then e else setAttr e name v

/-- A fixed tag and class. -/
def tag (tag class_ : String) : Component := ⟨fun input => .element (element input tag class_)⟩

/-- The level of a heading: `level` when it is one to six, else two. -/
def headingLevel (props : Members) : Nat :=
  match Dict.get? "level" props with
  | some (.num (.int i)) => if 1 ≤ i ∧ i ≤ 6 then i.toNat else 2
  | _ => 2

/-- A tag by the level, which is no attribute then. -/
def heading : Component := ⟨fun input =>
  let e := element input ("h" ++ toString (headingLevel input.props)) "sdui-heading"
  .element { e with attrs := Dict.erase "level" e.attrs }⟩

/-- An input of type `checkbox`, whatever the props say. -/
def checkbox : Component := ⟨fun input =>
  .element (setAttr (element input "input" "sdui-checkbox") "type" (.str "checkbox"))⟩

/-- A checkbox that is announced as a switch, unless the props give another role. -/
def switch : Component := ⟨fun input =>
  let e := setAttr (element input "input" "sdui-switch") "type" (.str "checkbox")
  .element (setAttrIfAbsent e "role" (.str "switch"))⟩

/-- A block that is announced at once, unless the props give another role. -/
def alert : Component := ⟨fun input =>
  .element (setAttrIfAbsent (element input "div" "sdui-alert") "role" (.str "alert"))⟩

end Component

/-! ### The built-in registry -/

/-- Built-in components that are a tag and a class and nothing more. -/
def builtinTags : List (String × String × String) :=
  [("Box", "div", "sdui-box"),
   ("Container", "div", "sdui-container"),
   ("Section", "section", "sdui-section"),
   ("Stack", "div", "sdui-stack"),
   ("Flex", "div", "sdui-flex"),
   ("Grid", "div", "sdui-grid"),
   ("Header", "header", "sdui-header"),
   ("Footer", "footer", "sdui-footer"),
   ("Nav", "nav", "sdui-nav"),
   ("Card", "div", "sdui-card"),
   ("CardHeader", "div", "sdui-card-header"),
   ("CardTitle", "h3", "sdui-card-title"),
   ("CardDescription", "p", "sdui-card-description"),
   ("CardContent", "div", "sdui-card-content"),
   ("CardFooter", "div", "sdui-card-footer"),
   ("Text", "span", "sdui-text"),
   ("Paragraph", "p", "sdui-paragraph"),
   ("Label", "label", "sdui-label"),
   ("Link", "a", "sdui-link"),
   ("Badge", "span", "sdui-badge"),
   ("Button", "button", "sdui-button"),
   ("Form", "form", "sdui-form"),
   ("Select", "select", "sdui-select"),
   ("Option", "option", "sdui-option"),
   ("List", "ul", "sdui-list"),
   ("ListItem", "li", "sdui-list-item"),
   ("Divider", "hr", "sdui-divider"),
   ("Input", "input", "sdui-input"),
   ("Textarea", "textarea", "sdui-textarea"),
   ("Progress", "progress", "sdui-progress"),
   ("Skeleton", "div", "sdui-skeleton"),
   ("Image", "img", "sdui-image"),
   ("ScrollProgress", "div", "sdui-scroll-progress")]

namespace Registry

/-- The built-in components. -/
def builtin : Registry :=
  let tags :=
    builtinTags.foldl (fun r (name, tag, class_) => r.register name (.tag tag class_)) empty
  (((tags.register "Heading" .heading).register "Checkbox" .checkbox).register "Switch"
    .switch).register "Alert" .alert

end Registry

end ServerUi
