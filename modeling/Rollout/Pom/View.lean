import Rollout.Xml.Node
import Rollout.Text.Blank

/-!
# Reading a build descriptor

What a descriptor says, read from its tree. Elements are found by local name, the first one
wherever one is meant, and their texts are read without the blanks around them.

- `PluginKey`: the group and artifact that identify a plugin; `pluginKey` reads it.
- `pluginsOf`: the plugins of the build block inside a node.
- `hostsPlugin`: whether the build block of a profile declares a plugin.
- `artifactId`, `version`, `dependencies`, `profiles`, `hosting`: what the root says.
-/

namespace Rollout.Pom

open Xml

/-- The group and artifact that identify a plugin. -/
structure PluginKey where
  group : String
  artifact : String
  deriving DecidableEq, Repr

/-- The plugin that deploys the application. -/
def deployPlugin : PluginKey := ⟨"io.fabric8", "fabric8-maven-plugin"⟩

/-- The group of a plugin that names none. -/
def defaultPluginGroup : String := "org.apache.maven.plugins"

/-! ## Parts -/

/-- The text of the first child of a name, without the blanks around it. -/
def childText (name : String) (node : Node) : Option String :=
  (node.child? name).bind fun child => child.text.map Text.strip

/-- The elements called `item` inside the first child called `container`. -/
def itemsOf (container item : String) (node : Node) : List Node :=
  match node.child? container with
  | some block => block.childrenNamed item
  | none => []

/-- The text, unless it is empty. -/
def nonEmpty (text : Option String) : Option String :=
  text.filter fun s => !s.isEmpty

/-! ## Plugins -/

/-- The key of a plugin element. -/
def pluginKey (plugin : Node) : PluginKey :=
  ⟨(nonEmpty (childText "groupId" plugin)).getD defaultPluginGroup,
    (childText "artifactId" plugin).getD ""⟩

/-- Whether an element is a plugin of this key. -/
def isPlugin (key : PluginKey) (node : Node) : Bool :=
  node.isNamed "plugin" && pluginKey node == key

/-- The plugins of a build block. -/
def blockPlugins (build : Node) : List Node :=
  itemsOf "plugins" "plugin" build

/-- The plugins of the build block inside a project or profile. -/
def pluginsOf (owner : Node) : List Node :=
  match owner.child? "build" with
  | some build => blockPlugins build
  | none => []

/-- The first plugin of this key in the build block inside a project or profile. -/
def pluginOf? (key : PluginKey) (owner : Node) : Option Node :=
  (pluginsOf owner).find? fun plugin => pluginKey plugin == key

/-- Whether the build block of a profile declares a plugin. -/
def hostsPlugin (key : PluginKey) (profile : Node) : Bool :=
  (pluginOf? key profile).isSome

/-- The goals of an execution. -/
def goalsOf (execution : Node) : List String :=
  (itemsOf "goals" "goal" execution).map fun goal => Text.strip (goal.text.getD "")

/-- The executions of a plugin: their ids and goals. -/
def executionsOf (plugin : Node) : List (Option String × List String) :=
  (itemsOf "executions" "execution" plugin).map fun execution =>
    (childText "id" execution, goalsOf execution)

/-! ## Projects -/

/-- The artifact of a project. -/
def artifactId (project : Node) : Option String :=
  childText "artifactId" project

/-- The version of a project, or else that of its parent. -/
def version (project : Node) : Option String :=
  match nonEmpty (childText "version" project) with
  | some found => some found
  | none => (project.child? "parent").bind (childText "version")

/-- The group, artifact and version of a dependency. -/
structure Coordinates where
  group : Option String
  artifact : Option String
  version : Option String
  deriving DecidableEq, Repr

/-- The coordinates a dependency element gives. -/
def coordinates (dependency : Node) : Coordinates :=
  ⟨childText "groupId" dependency, childText "artifactId" dependency,
    childText "version" dependency⟩

/-- The dependencies of a project. -/
def dependencies (project : Node) : List Coordinates :=
  (itemsOf "dependencies" "dependency" project).map coordinates

/-- The profiles of a project. -/
def profiles (project : Node) : List Node :=
  itemsOf "profiles" "profile" project

/-- The id of a profile. -/
def profileId (profile : Node) : Option String :=
  childText "id" profile

/-- The first profile of this id. -/
def profileOf? (id : String) (project : Node) : Option Node :=
  (profiles project).find? fun profile => profileId profile == some id

/-- The profiles whose build block declares a plugin, in order. -/
def hosting (key : PluginKey) (project : Node) : List Node :=
  (profiles project).filter (hostsPlugin key)

end Rollout.Pom
