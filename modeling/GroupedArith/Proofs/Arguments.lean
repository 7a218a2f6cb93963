/-
# `GroupedArith.Proofs.Arguments` — a command line for every choice of options

An item can be written as an argument: `--name` or `--name=VALUE`, and an operand
behind `--` as it is.  Arguments that are written like this are read as these items,
whatever the values and operands look like (`items_arguments`): a value may be empty
or begin with a dash, and an operand may look like an option.

It follows that for all options of a run there is a command line that asks for
them (`RunOptions.ofArguments_arguments`): for every source as a text and every path
of a file, all lists of names, with repetitions and with names that mean nothing,
and both flags.
-/
import GroupedArith.Command.Invocation
import Mathlib.Data.List.TakeWhile

namespace GroupedArith

/-! ## Items -/

/-- An option as an argument; an operand stays as it is. -/
def Item.argument : Item → String
  | flag name => "--" ++ name
  | setting name value => "--" ++ name ++ "=" ++ value
  | operand text => text

/-- The item is an option of these rules, with a value if and only if its rule has one. -/
def Item.Fits (rules : List OptionRule) : Item → Prop
  | flag name =>
    name ≠ "" ∧ '=' ∉ name.toList ∧
      ∃ rule, rules.find? (·.long == name) = some rule ∧ rule.hasValue = false
  | setting name _ =>
    '=' ∉ name.toList ∧ ∃ rule, rules.find? (·.long == name) = some rule ∧ rule.hasValue = true
  | operand _ => False

section Options
variable {rules : List OptionRule} {name : String} {rule : OptionRule}

theorem ne_of_not_mem {c : Char} (h : '=' ∉ name.toList) (hc : c ∈ name.toList) :
    decide (c ≠ '=') = true := by
  refine decide_eq_true ?_
  rintro rfl
  exact h hc

theorem long_eq_of_find? (h : rules.find? (·.long == name) = some rule) : rule.long = name := by
  simpa using List.find?_some h

theorem Argument.ofLong_flag (hname : '=' ∉ name.toList)
    (hfind : rules.find? (·.long == name) = some rule) (hvalue : rule.hasValue = false) :
    ofLong rules name.toList = .ok (.item (.flag name)) := by
  have htake : name.toList.takeWhile (· ≠ '=') = name.toList :=
    List.takeWhile_eq_self_iff.mpr fun c hc => ne_of_not_mem hname hc
  have hdrop : name.toList.dropWhile (· ≠ '=') = [] :=
    List.dropWhile_eq_nil_iff.mpr fun c hc => ne_of_not_mem hname hc
  simp only [ofLong, htake, hdrop, String.ofList_toList, hfind, hvalue, long_eq_of_find? hfind,
    Bool.false_eq_true, if_false]

theorem Argument.ofLong_setting (hname : '=' ∉ name.toList)
    (hfind : rules.find? (·.long == name) = some rule) (hvalue : rule.hasValue = true)
    (value : List Char) :
    ofLong rules (name.toList ++ '=' :: value) = .ok (.item (.setting name (.ofList value))) := by
  have htake : (name.toList ++ '=' :: value).takeWhile (· ≠ '=') = name.toList := by
    rw [List.takeWhile_append_of_pos fun c hc => ne_of_not_mem hname hc,
      List.takeWhile_cons_of_neg (by simp), List.append_nil]
  have hdrop : (name.toList ++ '=' :: value).dropWhile (· ≠ '=') = '=' :: value := by
    rw [List.dropWhile_append_of_pos fun c hc => ne_of_not_mem hname hc,
      List.dropWhile_cons_of_neg (by simp)]
  simp only [ofLong, htake, hdrop, String.ofList_toList, hfind, hvalue, long_eq_of_find? hfind,
    if_true]

/-- An option that is written as an argument is read as this option. -/
theorem Item.Fits.ofString_argument {i : Item} (h : i.Fits rules) :
    Argument.ofString rules i.argument = .ok (.item i) ∧ i.argument ≠ "--" := by
  cases i with
  | flag name =>
      obtain ⟨hne, hname, rule, hfind, hvalue⟩ := h
      have htext : (flag name).argument.toList = '-' :: '-' :: name.toList := by
        simp [argument]
      constructor
      · rw [Argument.ofString, htext]
        exact Argument.ofLong_flag hname hfind hvalue
      · intro heq
        rw [heq] at htext
        exact hne (String.toList_eq_nil_iff.mp (by simpa using htext))
  | setting name value =>
      obtain ⟨hname, rule, hfind, hvalue⟩ := h
      have htext : (setting name value).argument.toList =
          '-' :: '-' :: (name.toList ++ '=' :: value.toList) := by
        simp [argument]
      constructor
      · rw [Argument.ofString, htext]
        have hread := Argument.ofLong_setting hname hfind hvalue value.toList
        rwa [String.ofList_toList] at hread
      · intro heq
        rw [heq] at htext
        exact absurd htext (by simp)
  | operand text => exact h.elim

theorem items_terminator (operands : List String) :
    items rules ("--" :: operands) = .ok (operands.map .operand) := by
  rw [items.eq_def]
  exact if_pos rfl

theorem items_cons_of_item {argument : String} {i : Item}
    (hread : Argument.ofString rules argument = .ok (.item i)) (hne : argument ≠ "--")
    (more : List String) :
    items rules (argument :: more) = (items rules more).map (i :: ·) := by
  rw [items.eq_def]
  simp only [if_neg hne, hread]

/-- Options, and behind `--` operands, are read as what they are written for. -/
theorem items_arguments {l : List Item} (h : ∀ i ∈ l, i.Fits rules) (operands : List String) :
    items rules (l.map Item.argument ++ "--" :: operands) =
      .ok (l ++ operands.map .operand) := by
  induction l with
  | nil => exact items_terminator operands
  | cons i l ih =>
      obtain ⟨hi, hl⟩ := List.forall_mem_cons.mp h
      obtain ⟨hread, hne⟩ := hi.ofString_argument
      rw [List.map_cons, List.cons_append, items_cons_of_item hread hne, ih hl]
      rfl

end Options

theorem Item.values_append (name : String) (l m : List Item) :
    values name (l ++ m) = values name l ++ values name m :=
  List.filterMap_append

theorem Item.values_map_setting (name option : String) (texts : List String) :
    values name (texts.map (.setting option)) = if option = name then texts else [] := by
  rw [values, List.filterMap_map, Function.comp_def]
  by_cases h : option = name
  · simp [h]
  · simp [h]

theorem Item.operands_append (l m : List Item) : operands (l ++ m) = operands l ++ operands m :=
  List.filterMap_append

theorem Item.operands_map_setting (option : String) (texts : List String) :
    operands (texts.map (.setting option)) = [] := by
  rw [operands, List.filterMap_map, Function.comp_def]
  simp

/-! ## The options of a run -/

def SourceChoice.operands : SourceChoice → List String
  | file path => [path]
  | _ => []

def SourceChoice.settings : SourceChoice → List Item
  | inline text => [.setting "expr" text]
  | _ => []

namespace RunOptions

def flags (o : RunOptions) : List Item :=
  (if o.showTree then [.flag "show-tree"] else []) ++ if o.execute then [.flag "execute"] else []

/-- All that is written before the operands. -/
def settings (o : RunOptions) : List Item :=
  o.engines.map (.setting "backend") ++ o.flags ++ o.source.settings

/-- A command line that asks for these options. -/
def arguments (o : RunOptions) : List String :=
  "run" :: (o.settings.map Item.argument ++ "--" :: o.source.operands)

/-- The items of this command line. -/
def items (o : RunOptions) : List Item := o.settings ++ o.source.operands.map .operand

theorem items_arguments_tail (o : RunOptions) :
    GroupedArith.items runOptions o.arguments.tail = .ok o.items := by
  refine items_arguments (fun i hi => ?_) _
  rw [settings, List.mem_append, List.mem_append] at hi
  rcases hi with (hi | hi) | hi
  · obtain ⟨name, -, rfl⟩ := List.mem_map.mp hi
    exact ⟨by decide, _, rfl, rfl⟩
  · rw [flags, List.mem_append] at hi
    rcases hi with hi | hi
    · split at hi
      · rw [List.mem_singleton.mp hi]
        exact ⟨by decide, by decide, _, rfl, rfl⟩
      · exact absurd hi List.not_mem_nil
    · split at hi
      · rw [List.mem_singleton.mp hi]
        exact ⟨by decide, by decide, _, rfl, rfl⟩
      · exact absurd hi List.not_mem_nil
  · cases hsource : o.source with
    | inline text =>
        rw [hsource] at hi
        rw [List.mem_singleton.mp hi]
        exact ⟨by decide, _, rfl, rfl⟩
    | file path =>
        rw [hsource] at hi
        exact absurd hi List.not_mem_nil
    | demo =>
        rw [hsource] at hi
        exact absurd hi List.not_mem_nil

/-- Only the names of the engines and the source have values. -/
theorem values_items (o : RunOptions) (name : String) :
    Item.values name o.items =
      Item.values name (o.engines.map (.setting "backend")) ++
        Item.values name o.source.settings := by
  have hflags : Item.values name o.flags = [] := by
    rw [flags]
    cases o.showTree <;> cases o.execute <;> rfl
  have hoperands : Item.values name (o.source.operands.map .operand) = [] := by
    cases o.source <;> rfl
  rw [items, settings, Item.values_append, Item.values_append, Item.values_append, hflags,
    hoperands, List.append_nil, List.append_nil]

theorem values_backend_items (o : RunOptions) : Item.values "backend" o.items = o.engines := by
  have hsource : Item.values "backend" o.source.settings = [] := by
    cases o.source <;> rfl
  rw [values_items, hsource, List.append_nil, Item.values_map_setting, if_pos rfl]

theorem operands_items (o : RunOptions) : Item.operands o.items = o.source.operands := by
  have hflags : Item.operands o.flags = [] := by
    rw [flags]
    cases o.showTree <;> cases o.execute <;> rfl
  rw [items, settings, Item.operands_append, Item.operands_append, Item.operands_append,
    Item.operands_map_setting, hflags]
  cases o.source <;> rfl

theorem ofItems_items (o : RunOptions) : SourceChoice.ofItems o.items = .ok o.source := by
  rw [SourceChoice.ofItems, Item.value?, Item.operand?, values_items, Item.values_map_setting,
    if_neg (by decide), List.nil_append, operands_items]
  cases o.source with
  | inline text => rfl
  | file path => rfl
  | demo => rfl

theorem isSet_items (o : RunOptions) :
    Item.isSet "show-tree" o.items = .ok o.showTree ∧
      Item.isSet "execute" o.items = .ok o.execute := by
  have hcount : ∀ name, o.items.count (.flag name) = o.flags.count (.flag name) := by
    intro name
    have hengines : (o.engines.map (Item.setting "backend")).count (.flag name) = 0 :=
      List.count_eq_zero.mpr (by simp)
    have hoperands : (o.source.operands.map Item.operand).count (.flag name) = 0 :=
      List.count_eq_zero.mpr (by simp)
    have hsettings : o.source.settings.count (.flag name) = 0 := by
      cases o.source <;> simp [SourceChoice.settings]
    rw [items, settings, List.count_append, List.count_append, List.count_append, hengines,
      hoperands, hsettings, Nat.zero_add]
    rfl
  rw [Item.isSet, Item.isSet, hcount, hcount, flags]
  cases o.showTree <;> cases o.execute <;> exact ⟨rfl, rfl⟩

/-- The command line that is written for some options asks for them. -/
theorem ofArguments_arguments (o : RunOptions) :
    Invocation.ofArguments o.arguments = .ok (.run o) := by
  have hitems := o.items_arguments_tail
  obtain ⟨hshowTree, hexecute⟩ := o.isSet_items
  rw [arguments, List.tail_cons] at hitems
  rw [arguments, Invocation.ofArguments, hitems]
  simp only [bind, Except.bind, ofItems_items, values_backend_items, hshowTree, hexecute]
  rfl

end RunOptions

example :
    ({ source := .file "--expr", engines := ["", "interp"], execute := true }
      : RunOptions).arguments =
    ["run", "--backend=", "--backend=interp", "--execute", "--", "--expr"] := rfl

end GroupedArith
