import Rollout.Files.Packaged
import Rollout.Proofs.Pom.FileEdits
import Rollout.Proofs.Pom.Template
import Rollout.Proofs.Xml.Layout
import Rollout.Proofs.Xml.Typed

/-!
# The annotation that is stamped

The packaged template puts an annotation into the configuration of the deployment plugin. The
elements that are set are those of the template, in the namespace of the document, and their texts
are the key and the value as they were given.

- `bare_mapLabels`, `plain_indented`: layout and labels, and plain elements that are indented.
- `annotated`: the elements of the packaged template around a key and a value.
- `filledTemplate_configurationTemplate`, `readFragment_configurationTemplate`: **the template**
  with the key and the value in it, and as it is read.
- `Annotates`: a project whose deployment plugin has the annotation, and nothing else is changed.
- `annotation_read_back`: **the annotation** is what a project takes.
-/

namespace Rollout

namespace Xml

/-! ## Trees without layout -/

theorem mapLabels_withTail (f : Label → Label) (node : Node) (tail : Option String) :
    Node.mapLabels f { node with tail := tail } = { node.mapLabels f with tail := tail } := by
  obtain ⟨label, text, children, _⟩ := node
  rfl

mutual

/-- Labels are changed in a tree without layout as in the tree. -/
theorem bare_mapLabels (f : Label → Label) : (node : Node) →
    (node.mapLabels f).bare = node.bare.mapLabels f
  | ⟨_, _, [], _⟩ => rfl
  | ⟨label, text, child :: children, tail⟩ => by
    have hchildren := bareAll_mapLabelsAll f (child :: children)
    rw [Node.mapLabels, Node.bare, Node.mapLabels, ← hchildren]
    rfl

theorem bareAll_mapLabelsAll (f : Label → Label) : (nodes : List Node) →
    bareAll (Node.mapLabelsAll f nodes) = Node.mapLabelsAll f (bareAll nodes)
  | [] => rfl
  | node :: nodes => by
    have htail : (node.mapLabels f).tail = node.tail := by
      obtain ⟨label, text, children, tail⟩ := node
      rfl
    rw [Node.mapLabelsAll, bareAll, bareAll, Node.mapLabelsAll, bare_mapLabels f node,
      bareAll_mapLabelsAll f nodes, htail, mapLabels_withTail]

end

/-! ## Plain layout -/

theorem typedText_lineBreak {unit : String} (h : ∀ c ∈ unit.toList, c = ' ') (depth : Nat) :
    TypedText (lineBreak unit depth).toList := by
  have hall : ∀ {p : Char → Prop}, p '\n' → p ' ' → ∀ c ∈ (lineBreak unit depth).toList, p c :=
    fun hline hspace => forall_mem_lineBreak hline (fun c hc => (h c hc).symm ▸ hspace) depth
  have hchars := @hall (fun c => c = '\n' ∨ c = ' ') (.inl rfl) (.inr rfl)
  refine ⟨?_, hall (by decide) (by decide), hall (by decide) (by decide), ?_, fun hc =>
    absurd (hchars _ hc) (by decide)⟩
  · unfold lineBreak
    rw [String.toList_append]
    exact List.cons_ne_nil _ _
  · intro hmark
    have hbracket : ']' ∈ (lineBreak unit depth).toList := hmark.subset (by decide)
    exact absurd (hchars _ hbracket) (by decide)

theorem typedText_unlessBlank {text : Option String} {replacement : String}
    (h : ∀ s ∈ text, TypedText s.toList) (hreplacement : TypedText replacement.toList) :
    ∀ s ∈ unlessBlank text replacement, TypedText s.toList := by
  intro s hs
  unfold unlessBlank at hs
  cases text with
  | none =>
    obtain rfl : replacement = s := Option.some.inj hs
    exact hreplacement
  | some old =>
    dsimp only at hs
    split at hs
    · obtain rfl : replacement = s := Option.some.inj hs
      exact hreplacement
    · exact h s hs

/-- Plain elements that are indented with spaces. -/
theorem plain_indented {unit : String} (hunit : ∀ c ∈ unit.toList, c = ' ') {node : Node}
    (h : node.Every PlainElement) (depth : Nat) :
    (node.indented unit depth).Every PlainElement := by
  refine every_indented (fun each depth heach => ?_)
    (fun each depth _ heach => ?_) h depth
  · exact ⟨heach.label, heach.isName, heach.text,
      typedText_unlessBlank heach.tail (typedText_lineBreak hunit depth)⟩
  · exact ⟨heach.label, heach.isName,
      typedText_unlessBlank heach.text (typedText_lineBreak hunit (depth + 1)), heach.tail⟩

end Xml

namespace Pom

open Xml

/-! ## The packaged template -/

/-- The property of the packaged template around a key and a value. -/
def annotatedProperty (space key value : String) : Node :=
  .element ⟨space, "property"⟩ none
    [.element ⟨space, "name"⟩ (some key) [], .element ⟨space, "value"⟩ (some value) []]

/-- The elements of the packaged template around a key and a value. -/
def annotated (space key value : String) : Node :=
  let outer (name : String) (children : List Node) : Node := .element ⟨space, name⟩ none children
  outer "configuration"
    [outer "resources"
      [outer "annotations"
        [outer "all" [annotatedProperty space key value],
          outer "pod" [annotatedProperty space key value]]]]

/-- The characters of some lines. -/
def lineChars (lines : List String) : List Char :=
  lines.flatMap fun line => line.toList ++ ['\n']

/-- The text of the template before a key, between a key and a value, between a value and a key, and
behind the last value. -/
def templateHead : List Char :=
  lineChars ["<configuration>", "  <resources>", "    <annotations>", "      <all>",
    "        <property>"] ++ "          <name>".toList

def templateMiddle : List Char :=
  lineChars ["</name>"] ++ "          <value>".toList

def templateBetween : List Char :=
  lineChars ["</value>", "        </property>", "      </all>", "      <pod>",
    "        <property>"] ++ "          <name>".toList

def templateLast : List Char :=
  lineChars ["</value>", "        </property>", "      </pod>", "    </annotations>",
    "  </resources>"] ++ "</configuration>".toList

/-- The text of the template with texts in the places of the keys and the values, up to the text
behind it. -/
def templateAround (key value rest : List Char) : List Char :=
  templateHead ++ (key ++ (templateMiddle ++ (value ++ (templateBetween ++ (key ++ (templateMiddle
    ++ (value ++ (templateLast ++ rest))))))))

theorem toList_configurationTemplate :
    configurationTemplate.toList = templateAround keyChars valueChars ['\n'] := by
  unfold configurationTemplate textOfLines
  rw [String.toList_ofList]
  simp [templateAround, templateHead, templateMiddle, templateBetween, templateLast, lineChars,
    keyChars, valueChars]

/-- It is the text of its elements, laid out with two spaces. -/
theorem typed_annotated (key value : String) (rest : List Char) :
    ((annotated "" key value).indented "  " 0).typed rest
      = templateAround key.toList value.toList rest := by
  simp [annotated, annotatedProperty, Node.element, Node.indented, indentedAll, Node.typed,
    typedAll, unlessBlank, lineBreak, Label.nameChars, Label.name?,
    templateAround, templateHead, templateMiddle, templateBetween, templateLast, lineChars]

/-! ## The template filled in -/

/-- An occurrence does not reach over a character that is not in it. -/
theorem infix_of_infix_cut {pattern front rest : List Char} {c : Char} (hc : c ∉ pattern)
    (h : pattern <:+: front ++ c :: rest) : pattern <:+: front ∨ pattern <:+: rest := by
  have hempty : ∀ {part}, (∀ d ∈ part, d ∈ pattern) → part <+: c :: rest → part = [] := by
    intro part hpart hbegins
    cases part with
    | nil => rfl
    | cons d part =>
      obtain rfl := (List.cons_prefix_cons.mp hbegins).1
      exact absurd (hpart d (List.mem_cons_self ..)) hc
  rcases List.infix_append_iff.mp h with hfront | hrest | ⟨first, second, rfl, hfirst, hsecond⟩
  · exact .inl hfront
  · rcases List.infix_cons_iff.mp hrest with hbegins | hlater
    · exact .inl (hempty (fun _ hd => hd) hbegins ▸ List.nil_infix)
    · exact .inr hlater
  · obtain rfl := hempty (fun _ hd => List.mem_append_right first hd) hsecond
    rw [List.append_nil]
    exact .inl hfirst.isInfix

/-- Between two tags without braces a key forms no value token. -/
theorem not_infix_between_tags {key front rest : List Char} (hkey : ¬ valueChars <:+: key)
    (hfront : '\x7b' ∉ front) (hrest : '\x7b' ∉ rest) :
    ¬ valueChars <:+: front ++ '>' :: (key ++ '<' :: rest) := by
  have hbrace : ∀ {part}, '\x7b' ∉ part → ¬ valueChars <:+: part := fun hpart hvalue =>
    hpart (hvalue.subset (by decide))
  intro h
  rcases infix_of_infix_cut (by decide) h with hinside | hinside
  · exact hbrace hfront hinside
  · rcases infix_of_infix_cut (by decide) hinside with hinside | hinside
    · exact hkey hinside
    · exact hbrace hrest hinside

section Filled

variable {key value : String}

/-- **The packaged template filled in**: the value is put in its places only. -/
theorem filledTemplate_configurationTemplate (htoken : ¬ valueToken.toList <:+: key.toList) :
    (filledTemplate configurationTemplate key value).toList
      = templateAround key.toList value.toList ['\n'] := by
  obtain ⟨head, hhead, hheadBrace⟩ : ∃ head, templateHead = head ++ ['>'] ∧ '\x7b' ∉ head :=
    ⟨templateHead.dropLast, by simp [templateHead, lineChars], by simp [templateHead, lineChars]⟩
  obtain ⟨between, hbetween, hbetweenBrace⟩ :
      ∃ between, templateBetween = between ++ ['>'] ∧ '\x7b' ∉ between :=
    ⟨templateBetween.dropLast, by simp [templateBetween, lineChars],
      by simp [templateBetween, lineChars]⟩
  obtain ⟨middle, hmiddle, hmiddleBrace⟩ :
      ∃ middle, templateMiddle = '<' :: middle ∧ '\x7b' ∉ middle :=
    ⟨templateMiddle.tail, by simp [templateMiddle, lineChars], by simp [templateMiddle, lineChars]⟩
  have hlastBrace : '\x7b' ∉ templateLast ++ ['\n'] := by simp [templateLast, lineChars]
  have hpieces : keyedPieces key.toList (partsOf configurationTemplate.toList)
      = [templateHead ++ (key.toList ++ templateMiddle),
        templateBetween ++ (key.toList ++ templateMiddle), templateLast ++ ['\n']] := by
    have hbraces : '\x7b' ∉ templateHead ∧ '\x7b' ∉ templateBetween ∧ '\x7b' ∉ templateMiddle := by
      rw [hhead, hbetween, hmiddle]
      simp [hheadBrace, hbetweenBrace, hmiddleBrace]
    rw [toList_configurationTemplate, templateAround, keyedPieces_append_key hbraces.1,
      keyedPieces_append_value hbraces.2.2, keyedPieces_append_key hbraces.2.1,
      keyedPieces_append_value hbraces.2.2, keyedPieces_of_not_mem hlastBrace]
    rfl
  have hwhole : ∀ piece ∈ keyedPieces key.toList (partsOf configurationTemplate.toList),
      Text.replaceFrom valueChars value.toList 0 piece = piece := by
    intro piece hpiece
    refine Text.replaceFrom_of_not_infix ?_
    rw [hpieces] at hpiece
    simp only [List.mem_cons, List.not_mem_nil, or_false] at hpiece
    rcases hpiece with rfl | rfl | rfl
    · rw [hhead, hmiddle, List.append_assoc]
      exact not_infix_between_tags htoken hheadBrace hmiddleBrace
    · rw [hbetween, hmiddle, List.append_assoc]
      exact not_infix_between_tags htoken hbetweenBrace hmiddleBrace
    · exact fun hvalue => hlastBrace (hvalue.subset (by decide))
  rw [filledTemplate_eq, String.toList_ofList, List.map_congr_left hwhole, List.map_id', hpieces,
    List.intercalate_cons_cons, List.intercalate_cons_cons, List.intercalate_singleton,
    templateAround]
  simp only [List.append_assoc]

theorem strip_line {cs more front : List Char} {c d : Char} (hfirst : cs = c :: more)
    (hc : Text.isBlank c = false) (hlast : cs = front ++ [d]) (hd : Text.isBlank d = false) :
    Text.strip (String.ofList (cs ++ ['\n'])) = String.ofList cs := by
  have hfront : (cs ++ ['\n']).dropWhile Text.isBlank = cs ++ ['\n'] := by
    rw [hfirst, List.cons_append, List.dropWhile_cons_of_neg (Bool.eq_false_iff.mp hc)]
  have hback : (cs ++ ['\n']).reverse.dropWhile Text.isBlank = cs.reverse := by
    rw [hlast, List.reverse_append, List.reverse_singleton, List.singleton_append,
      List.dropWhile_cons_of_pos (by decide), List.reverse_append, List.reverse_singleton,
      List.singleton_append, List.dropWhile_cons_of_neg (Bool.eq_false_iff.mp hd)]
  unfold Text.strip Text.stripClass
  rw [String.toList_ofList, hfront, hback, List.reverse_reverse]

theorem strip_templateAround (key value : List Char) :
    Text.strip (String.ofList (templateAround key value ['\n']))
      = String.ofList (templateAround key value []) := by
  obtain ⟨head, hhead⟩ : ∃ head, templateHead = '<' :: head :=
    ⟨templateHead.tail, by simp [templateHead, lineChars]⟩
  obtain ⟨last, hlast⟩ : ∃ last, templateLast = last ++ ['>'] :=
    ⟨templateLast.dropLast, by simp [templateLast, lineChars]⟩
  have hline : templateAround key value ['\n'] = templateAround key value [] ++ ['\n'] := by
    unfold templateAround
    simp only [List.append_assoc, List.append_nil]
  have hfirst : ∃ more, templateAround key value [] = '<' :: more := by
    unfold templateAround
    rw [hhead]
    exact ⟨_, List.cons_append ..⟩
  have hend : ∃ front, templateAround key value [] = front ++ ['>'] := by
    unfold templateAround
    rw [hlast, List.append_nil]
    simp only [← List.append_assoc]
    exact ⟨_, rfl⟩
  obtain ⟨more, hmore⟩ := hfirst
  obtain ⟨front, hfront⟩ := hend
  rw [hline]
  exact strip_line hmore (by decide) hfront (by decide)

theorem plain_container {name : String} (hname : IsName name.toList) {children : List Node}
    (h : ∀ child ∈ children, child.Every PlainElement) :
    (Node.element ⟨"", name⟩ none children).Every PlainElement :=
  .intro ⟨⟨name, rfl⟩, hname, nofun, nofun⟩ h

theorem plain_leaf {name text : String} (hname : IsName name.toList)
    (htext : TypedText text.toList) :
    (Node.element ⟨"", name⟩ (some text) []).Every PlainElement := by
  refine .intro ⟨⟨name, rfl⟩, hname, ?_, nofun⟩ fun _ hchild => absurd hchild List.not_mem_nil
  rintro s ⟨⟩
  exact htext

theorem plain_annotated (hkey : TypedText key.toList) (hvalue : TypedText value.toList) :
    (annotated "" key value).Every PlainElement := by
  have hproperty : (annotatedProperty "" key value).Every PlainElement :=
    plain_container (by decide) (List.forall_mem_cons.mpr
      ⟨plain_leaf (by decide) hkey, List.forall_mem_singleton.mpr (plain_leaf (by decide) hvalue)⟩)
  have hscope : ∀ {name : String}, IsName name.toList →
      (Node.element ⟨"", name⟩ none [annotatedProperty "" key value]).Every PlainElement :=
    fun hname => plain_container hname (List.forall_mem_singleton.mpr hproperty)
  refine plain_container (by decide) (List.forall_mem_singleton.mpr ?_)
  refine plain_container (by decide) (List.forall_mem_singleton.mpr ?_)
  exact plain_container (by decide) (List.forall_mem_cons.mpr
    ⟨hscope (by decide), List.forall_mem_singleton.mpr (hscope (by decide))⟩)

theorem readFragment_of_root {text : String} {root : Node}
    (hread : readDocument? (Text.strip text) = some root)
    (hnamed : root.isNamed "configuration" = true) : readFragment text = .ok root := by
  unfold readFragment
  rw [hread]
  dsimp only
  rw [if_pos hnamed]

/-- **The packaged template** is read as the elements around the key and the value. -/
theorem readFragment_configurationTemplate (hkey : TypedText key.toList)
    (hvalue : TypedText value.toList) (htoken : ¬ valueToken.toList <:+: key.toList) :
    readFragment (filledTemplate configurationTemplate key value)
      = .ok ((annotated "" key value).indented "  " 0) := by
  have hspaces : ∀ c ∈ "  ".toList, c = ' ' := by simp
  have hplain := plain_indented hspaces (plain_annotated hkey hvalue) 0
  have htail : ((annotated "" key value).indented "  " 0).tail = none := rfl
  have htext : Text.strip (filledTemplate configurationTemplate key value)
      = String.ofList (((annotated "" key value).indented "  " 0).typed []) := by
    rw [typed_annotated, ← strip_templateAround, ← filledTemplate_configurationTemplate htoken,
      String.ofList_toList]
  have hnamed : ((annotated "" key value).indented "  " 0).isNamed "configuration" = true :=
    (isNamed_of_label (indented_label ..) _).trans (beq_self_eq_true "configuration")
  refine readFragment_of_root ?_ hnamed
  rw [htext]
  exact readDocument?_typed hplain htail

end Filled

/-! ## The project afterwards -/

/-- The first item that passes a test gives way to a related one; the others stay. -/
def FirstChanged (test : Node → Bool) (R : Node → Node → Prop) (before after : List Node) : Prop :=
  ∃ front found found' back, before = front ++ found :: back ∧
    (∀ node ∈ front, test node = false) ∧ test found = true ∧ R found found' ∧
    after = front ++ found' :: back

theorem firstChanged_modifyFirst {test : Node → Bool} {R : Node → Node → Prop} {f : Node → Node}
    {nodes : List Node} (hany : (nodes.find? test).isSome = true)
    (hR : ∀ node, test node = true → R node (f node)) :
    FirstChanged test R nodes (modifyFirst test f nodes) := by
  induction nodes with
  | nil => cases hany
  | cons node nodes ih =>
    by_cases hnode : test node = true
    · refine ⟨[], node, f node, nodes, rfl, nofun, hnode, hR node hnode, ?_⟩
      rw [modifyFirst, if_pos hnode, List.nil_append]
    · rw [List.find?_cons_of_neg hnode] at hany
      obtain ⟨front, found, found', back, rfl, hfront, hfound, hrelated, hafter⟩ := ih hany
      refine ⟨node :: front, found, found', back, rfl, List.forall_mem_cons.mpr
        ⟨Bool.eq_false_iff.mpr hnode, hfront⟩, hfound, hrelated, ?_⟩
      rw [modifyFirst, if_neg hnode, hafter, List.cons_append]

/-- An annotation in a project: the deployment plugin of the first profile that declares it has the
annotation for a configuration, and the other plugins are what they were. -/
structure Annotates (space key value : String) (project after : Node) : Prop where
  configuration : configuration? after = some (annotated space key value)
  profiles : FirstChanged (hostsPlugin deployPlugin)
    (fun profile profile' => FirstChanged (fun plugin => pluginKey plugin == deployPlugin)
      (fun _ plugin' => configurationOf plugin' = some (annotated space key value))
      (pluginsOf profile) (pluginsOf profile'))
    (profiles project) (profiles after)
  build : pluginsOf after = pluginsOf project

theorem bare_intoSpace_annotated (style : Style) (key value : String) :
    (style.intoSpace ((annotated "" key value).indented "  " 0)).bare
      = annotated style.space key value := by
  have hblank : Text.allBlank "  " = true := by decide
  unfold Style.intoSpace
  rw [bare_mapLabels, bare_indented hblank]
  rfl

/-- A profile changed leaves the plugins of the project itself. -/
theorem pluginsOf_changeProfile (test : Node → Bool) (f : Node → Node) (project : Node) :
    pluginsOf (changeProfile test f project) = pluginsOf project := by
  have hne : "profiles" ≠ "build" := by decide
  rw [pluginsOf_eq, pluginsOf_eq, changeProfile,
    childrenNamed_changeChild_of_ne (inPlace_children _).label hne]

section Main

variable {key value : String}

/-- A configuration that is the annotation once it is moved into the document. -/
theorem annotates_configure {style : Style} {fragment project after : Node}
    (hblank : Text.allBlank style.indent = true) (hosted : Hosted project)
    (hfragment : fragment.isNamed "configuration" = true)
    (hbare : (style.intoSpace fragment).bare = annotated style.space key value)
    (h : configure? fragment style project = some after) :
    Annotates style.space key value project after := by
  have hconfiguration := configuration?_configure hosted hfragment h hblank
  obtain ⟨plugin, hplugin⟩ := isSome_deployed? hosted
  rw [deployed?_eq] at hplugin
  obtain ⟨host, hhost, -⟩ := Option.bind_eq_some_iff.mp hplugin
  obtain rfl := Option.some.inj ((configure?_eq_some hosted).symm.trans h)
  rw [hbare] at hconfiguration
  refine ⟨hconfiguration, ?_, pluginsOf_changeProfile ..⟩
  rw [profiles_changeProfile (inPlace_changePlugin ..).label]
  refine firstChanged_modifyFirst (Option.isSome_of_eq_some hhost) fun profile hprofile => ?_
  rw [pluginsOf_changePlugin (inPlace_setConfiguration ..).label]
  refine firstChanged_modifyFirst hprofile fun plugin _ => ?_
  rw [configurationOf_setConfiguration hblank hfragment, hbare]

/-- The edit of a descriptor on disk, once the template and the descriptor are read. -/
theorem configureFile_run {pom place template : Path} {disk : Disk} {text form : String}
    {descriptor : Descriptor} {fragment after : Node}
    (hplace : disk.files.resolve pom = .ok place) (htext : disk.files.readText pom = .ok text)
    (hparse : Descriptor.parse? text = some descriptor)
    (htemplate : disk.files.readText template = .ok form)
    (hfragment : readFragment (filledTemplate form key value) = .ok fragment)
    (hafter : configure? fragment descriptor.style descriptor.root = some after) :
    configureFile pom key value template disk = .ok () (disk.holding place
      (({ descriptor with root := after } : Descriptor).serialize disk.register)) := by
  have hstamped : stampedFragment key value template disk.files = .ok fragment := by
    unfold stampedFragment
    rw [htemplate]
    dsimp only [bind, Except.bind]
    exact hfragment
  have hentry : Files.textAt (disk.files.get? place) = .ok text :=
    (Files.readText_of_resolve hplace).symm.trans htext
  have houtcome : FileEdit.outcome pom disk.files disk.register (disk.files.get? place)
      (.configuration key value template)
        = .ok (({ descriptor with root := after } : Descriptor).serialize disk.register) := by
    have hroot : configureRoot pom fragment descriptor.style descriptor.root = .ok after := by
      unfold configureRoot
      rw [hafter]
    unfold FileEdit.outcome FileEdit.change
    dsimp only
    rw [hstamped, hentry]
    dsimp only [Except.map, Except.bind]
    unfold rewritten
    rw [hparse]
    dsimp only
    rw [hroot]
    dsimp only [Except.map]
  have hperform := FileEdit.perform_eq hplace (.configuration key value template)
  rw [houtcome] at hperform
  exact hperform

/-- **The annotation that is stamped is read back.** A key and a value that can stand in a document
as they are, with no value token in the key, are put into the packaged template, and every project
with a profile that declares the deployment plugin takes it: the elements of its configuration are
those of the template in the namespace of the document, with the key and the value for texts. A
descriptor on disk is written with it. -/
theorem annotation_read_back (hkey : TypedText key.toList) (hvalue : TypedText value.toList)
    (htoken : ¬ valueToken.toList <:+: key.toList) :
    (∀ original project : Node, Hosted project →
      ∃ fragment after,
        readFragment (filledTemplate configurationTemplate key value) = .ok fragment ∧
        configure? fragment (styleOf original) project = some after ∧
        Annotates (spaceOf original) key value project after) ∧
    ∀ {pom place template : Path} {disk : Disk} {text : String} {descriptor : Descriptor},
      disk.files.resolve pom = .ok place → disk.files.readText pom = .ok text →
      Descriptor.parse? text = some descriptor → Hosted descriptor.root →
      disk.files.readText template = .ok configurationTemplate →
      ∃ after, configureFile pom key value template disk
          = .ok () (disk.holding place
            (({ descriptor with root := after } : Descriptor).serialize disk.register)) ∧
        Annotates (spaceOf descriptor.root) key value descriptor.root after := by
  have hprojects : ∀ original project : Node, Hosted project →
      ∃ fragment after,
        readFragment (filledTemplate configurationTemplate key value) = .ok fragment ∧
        configure? fragment (styleOf original) project = some after ∧
        Annotates (spaceOf original) key value project after := by
    intro original project hosted
    have hblank : Text.allBlank (styleOf original).indent = true := allBlank_indentUnit original
    have hafter := @configure?_eq_some (styleOf original)
      ((annotated "" key value).indented "  " 0) project hosted
    have hannotates := annotates_configure hblank hosted rfl
      (bare_intoSpace_annotated (styleOf original) key value) hafter
    exact ⟨_, _, readFragment_configurationTemplate hkey hvalue htoken, hafter, hannotates⟩
  refine ⟨hprojects, ?_⟩
  intro pom place template disk text descriptor hplace htext hparse hosted htemplate
  obtain ⟨fragment, after, hfragment, hafter, hannotates⟩ :=
    hprojects descriptor.root descriptor.root hosted
  rw [← style_eq_styleOf hparse] at hafter
  exact ⟨after, configureFile_run hplace htext hparse htemplate hfragment hafter, hannotates⟩

end Main

/-! ## A project with a namespace -/

/-- A project in a namespace, with a profile that declares the deployment plugin. -/
def hostText : String :=
  "<project xmlns=\"u\"><profiles><profile><build><plugins><plugin><groupId>io.fabric8</groupId>"
    ++ "<artifactId>fabric8-maven-plugin</artifactId></plugin></plugins></build></profile>"
    ++ "</profiles></project>\n"

/-- Its place, and that of the packaged template. -/
def hostPom : Path := ⟨.working, ["pom.xml"]⟩

def formPath : Path := ⟨.working, ["template.xml"]⟩

/-- A disk with both of them. -/
def hostDisk : Disk :=
  ⟨⟨[(hostPom, .file (.text hostText)), (formPath, .file (.text configurationTemplate))]⟩,
    Prefixes.standard⟩

/-- A key with a key token, quotes and brackets and a value with a value token are stamped as they
are. -/
theorem annotation_read_back_hostDisk :
    let key := "\x7bkey\x7d 'a' ]] > \"b\""
    let value := " \x7bvalue\x7d "
    TypedText key.toList ∧ TypedText value.toList ∧ ¬ valueToken.toList <:+: key.toList ∧
    ∃ descriptor after, Descriptor.parse? hostText = some descriptor ∧ Hosted descriptor.root ∧
      configureFile hostPom key value formPath hostDisk = .ok () (hostDisk.holding hostPom
        (({ descriptor with root := after } : Descriptor).serialize hostDisk.register)) ∧
      Annotates "u" key value descriptor.root after := by
  intro key value
  have hkey : TypedText key.toList :=
    ⟨by decide, by decide, List.all_eq_true.mp (by decide), occurs_eq_false_iff.mp (by decide),
      by decide⟩
  have hvalue : TypedText value.toList :=
    ⟨by decide, by decide, List.all_eq_true.mp (by decide), occurs_eq_false_iff.mp (by decide),
      by decide⟩
  have htoken : ¬ valueToken.toList <:+: key.toList := occurs_eq_false_iff.mp (by decide)
  have hread : (Descriptor.parse? hostText).any (fun descriptor =>
      !(hosting deployPlugin descriptor.root).isEmpty && spaceOf descriptor.root == "u")
        = true := by
    decide +kernel
  obtain ⟨descriptor, hparse, hhost⟩ := (Option.any_eq_true ..).mp hread
  rw [Bool.and_eq_true, Bool.not_eq_true', beq_iff_eq] at hhost
  obtain ⟨hosted, hspace⟩ := hhost
  have hplace : hostDisk.files.resolve hostPom = .ok hostPom := rfl
  have hfile : ∀ {path : Path} {text : String}, hostDisk.files.resolve path = .ok path →
      hostDisk.files.get? path = some (.file (.text text)) → '\r' ∉ text.toList →
      hostDisk.files.readText path = .ok text := by
    intro path text hresolve hentry hunified
    rw [Files.readText_of_resolve hresolve, hentry]
    exact congrArg Except.ok (unifyNewlines_of_not_mem hunified)
  have hunified : '\r' ∉ hostText.toList := by
    unfold hostText
    simp only [String.toList_append, List.mem_append, not_or]
    simp
  have hformUnified : '\r' ∉ configurationTemplate.toList := by
    have hparts : '\r' ∉ templateHead ∧ '\r' ∉ templateMiddle ∧ '\r' ∉ templateBetween ∧
        '\r' ∉ templateLast := by
      simp [templateHead, templateMiddle, templateBetween, templateLast, lineChars]
    rw [toList_configurationTemplate]
    simp [templateAround, hparts, keyChars, valueChars]
  have hpom : hostDisk.files.readText hostPom = .ok hostText :=
    hfile hplace rfl hunified
  have hform : hostDisk.files.readText formPath = .ok configurationTemplate :=
    hfile rfl rfl hformUnified
  obtain ⟨after, hrun, hannotates⟩ :=
    (annotation_read_back hkey hvalue htoken).2 hplace hpom hparse hosted hform
  rw [hspace] at hannotates
  exact ⟨hkey, hvalue, htoken, descriptor, after, hparse, hosted, hrun, hannotates⟩

end Pom

end Rollout
