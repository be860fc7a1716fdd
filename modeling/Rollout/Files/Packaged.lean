import Rollout.Files.Tree

/-!
# Packaged files

The files that come with the program: the template of the deployment plugin's configuration and the
content of a config map.
-/

namespace Rollout

/-- The directory of packaged files. -/
def resourceDir : Path := ⟨.package, ["resources"]⟩

/-- The text of some lines. -/
def textOfLines (lines : List String) : String :=
  String.ofList (lines.flatMap fun line => line.toList ++ ['\n'])

/-- The template stamped into the deployment plugin unless another one is configured. -/
def configurationTemplate : String :=
  textOfLines
    ["<configuration>",
      "  <resources>",
      "    <annotations>",
      "      <all>",
      "        <property>",
      "          <name>\x7bkey\x7d</name>",
      "          <value>\x7bvalue\x7d</value>",
      "        </property>",
      "      </all>",
      "      <pod>",
      "        <property>",
      "          <name>\x7bkey\x7d</name>",
      "          <value>\x7bvalue\x7d</value>",
      "        </property>",
      "      </pod>",
      "    </annotations>",
      "  </resources>",
      "</configuration>"]

/-- Where the configuration template is. -/
def configurationTemplatePath : Path := resourceDir.below "plugin-config.xml"

/-- The configuration of the greeting applications. -/
def greetingConfiguration : String :=
  textOfLines ["message : \"Hello, %s from a ConfigMap !\"", "level : INFO"]

/-- The packaged files. -/
def Files.packaged : Files :=
  ⟨[(resourceDir, .dir),
    (configurationTemplatePath, .file (.text configurationTemplate)),
    (resourceDir.below "app-config.yml", .file (.text greetingConfiguration))]⟩

end Rollout
