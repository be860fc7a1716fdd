import Rollout.Pom.Layout
import Rollout.Pom.View

/-!
# Edits of a build descriptor

Every edit takes the root of a project and gives the root afterwards. Containers that an edit needs
are added when missing, and what exists is kept.

- `insertDependency`, `insertProfile`: an entry added behind the existing ones.
- `Site`: the build block of the project or of a profile, where plugins are found and changed.
- `declareHost`: the deployment plugin declared in the profile that deploys.
- `pin`: the version of the deployment plugin set where it takes effect.
- `configure?`: the configuration of the deployment plugin replaced in the first profile that
  declares it.
-/

namespace Rollout.Pom

open Xml

/-! ## Entries -/

/-- The project with a dependency added. Dependencies that are there already are not looked at. -/
def insertDependency (group artifact version : String) (style : Style) (project : Node) : Node :=
  let dependency := style.newElement "dependency"
    [style.newTextElement "groupId" (some group), style.newTextElement "artifactId" (some artifact),
      style.newTextElement "version" (some version)]
  style.within 0 "dependencies" (style.insertLast 1 dependency) project

/-- A new profile with nothing but its id. -/
def newProfile (id : String) (style : Style) : Node :=
  style.newElement "profile" [style.newTextElement "id" (some id)]

/-- The project with a profile added. -/
def insertProfile (id : String) (style : Style) (project : Node) : Node :=
  style.within 0 "profiles" (style.insertLast 1 (newProfile id style)) project

/-- The profile, at depth 2, with a plugin added to its build block. -/
def insertPlugin (plugin : Node) (style : Style) (profile : Node) : Node :=
  style.within 2 "build" (style.within 3 "plugins" (style.insertLast 4 plugin)) profile

/-! ## Where plugins are -/

/-- The project or profile with its first plugin of this key changed. -/
def changePlugin (key : PluginKey) (f : Node → Node) (owner : Node) : Node :=
  changeChild "build"
    (changeChild "plugins" fun plugins =>
      { plugins with children := modifyFirst (isPlugin key) f plugins.children })
    owner

/-- The project with its first profile that passes the test changed. -/
def changeProfile (test : Node → Bool) (f : Node → Node) (project : Node) : Node :=
  changeChild "profiles"
    (fun block =>
      { block with
        children := modifyFirst (fun node => node.isNamed "profile" && test node) f
          block.children })
    project

/-- The project with all its profiles changed. -/
def changeProfiles (f : Node → Node) (project : Node) : Node :=
  changeChild "profiles"
    (fun block =>
      { block with
        children :=
          block.children.map fun node => if node.isNamed "profile" then f node else node })
    project

/-! ## Build blocks -/

/-- Where a build block stands: in the project, or in the first profile of an id. -/
inductive Site
  | project
  | profile (id : String)
  deriving DecidableEq, Repr

namespace Site

/-- The project or profile a build block stands in. -/
def owner? (site : Site) (project : Node) : Option Node :=
  match site with
  | .project => some project
  | .profile id => profileOf? id project

/-- The depth of the plugins of a build block. -/
def pluginDepth : Site → Nat
  | .project => 3
  | .profile _ => 5

/-- The first plugin of a key in a build block. -/
def plugin? (site : Site) (key : PluginKey) (project : Node) : Option Node :=
  (site.owner? project).bind (pluginOf? key)

/-- The project with the owner of a build block changed. -/
def changeOwner (site : Site) (f : Node → Node) (project : Node) : Node :=
  match site with
  | .project => f project
  | .profile id => changeProfile (fun profile => profileId profile == some id) f project

/-- The project with the first plugin of a key in a build block changed by an edit that is told the
depth of the plugin. -/
def change (site : Site) (key : PluginKey) (f : Nat → Node → Node) (project : Node) : Node :=
  site.changeOwner (changePlugin key (f site.pluginDepth)) project

end Site

/-! ## The deployment plugin -/

/-- The profile the deployment plugin is declared in when no profile declares it. -/
def deployProfile : String := "openshift"

/-- The executions the deployment plugin is declared with; each runs the goal of its name. -/
def deployExecutions : List String := ["resource", "build"]

/-- A declaration of the deployment plugin, without a version. -/
def deployDeclaration (style : Style) : Node :=
  let execution (goal : String) : Node :=
    style.newElement "execution"
      [style.newTextElement "id" (some goal),
        style.newElement "goals" [style.newTextElement "goal" (some goal)]]
  style.newElement "plugin"
    [style.newTextElement "groupId" (some deployPlugin.group),
      style.newTextElement "artifactId" (some deployPlugin.artifact),
      style.newElement "executions" (deployExecutions.map execution)]

/-- The project with the deployment plugin declared in its deploying profile, which is added when
there is none. -/
def declareHost (style : Style) (project : Node) : Node :=
  let prepared :=
    if (profileOf? deployProfile project).isSome then project
    else insertProfile deployProfile style project
  (Site.profile deployProfile).changeOwner (insertPlugin (deployDeclaration style) style) prepared

/-- The plugin, at `depth`, with its version set. -/
def setVersion (value : String) (style : Style) (depth : Nat) (plugin : Node) : Node :=
  style.withText depth "version" value ["artifactId", "groupId"] plugin

/-- The project with the version of the deployment plugin set: in the build block of the project
when that declares it, otherwise in every profile that does. A project where no profile declares
the plugin gets a declaration first. -/
def pin (value : String) (style : Style) (project : Node) : Node :=
  let hosted :=
    if (hosting deployPlugin project).isEmpty then declareHost style project else project
  if (Site.project.plugin? deployPlugin hosted).isSome then
    Site.project.change deployPlugin (setVersion value style) hosted
  else changeProfiles (changePlugin deployPlugin (setVersion value style 5)) hosted

/-- The plugin, at `depth`, with its configuration replaced by a fragment. -/
def setConfiguration (fragment : Node) (style : Style) (depth : Nat) (plugin : Node) : Node :=
  style.replaceChild depth "configuration" (style.intoSpace fragment) plugin

/-- The project with the configuration of the deployment plugin replaced in the first profile that
declares it; nothing when no profile does. -/
def configure? (fragment : Node) (style : Style) (project : Node) : Option Node :=
  if (hosting deployPlugin project).isEmpty then none
  else
    some <| changeProfile (hostsPlugin deployPlugin)
      (changePlugin deployPlugin (setConfiguration fragment style 5)) project

end Rollout.Pom
