import AikitRuntime.Governance.Permissions
import AikitRuntime.Library.Refusals
import AikitRuntime.Library.Wildcards

/-!
# Declarative policies

A `PolicySpec` lists entries to deny, to ask for and to allow. An entry is a tool's name, or a name and a glob in
parentheses, which is compiled to a regular expression and from there to a rule of the permission engine. This
module is that compiler, and that it keeps the meaning of the entries.

The regular expressions are a crate's. `RegexCrate` is what is relied on: how the crate reads literals, escapes, `.`
and `.*` between the anchors `(?s)^` and `$`. `readRegex` is that fragment of its syntax, and both it and a glob
are read as wildcards.
-/

namespace AikitRuntime.Governance

open Durability Library

/-! ### Regular expressions -/

/-- The characters that mean something outside a class. -/
def metacharacters : List Char := ['\\', '.', '+', '*', '?', '(', ')', '|', '[', ']', '\x7b', '\x7d', '^', '$']

/-- A concatenation of literals, escaped metacharacters, `.` and `.*`. -/
def readRegex : List Char → Option (List (Wildcard Char))
  | [] => some []
  | '\\' :: c :: rest =>
    if c ∈ metacharacters then (readRegex rest).map (.letter c :: ·) else none
  | '.' :: '*' :: rest => (readRegex rest).map (.run :: ·)
  | '.' :: rest => (readRegex rest).map (.one :: ·)
  | c :: rest => if c ∈ metacharacters then none else (readRegex rest).map (.letter c :: ·)

/-- The `regex` crate: an expression, or its error's text. With `(?s)` a dot is any character, and `^` and `$` are
the ends of the text. -/
class RegexCrate where
  /-- `Regex::new`, and `is_match` of what it made. -/
  new : String → Except String (String → Bool)
  isMatch_iff : ∀ {body : List Char} {wildcards : List (Wildcard Char)} {isMatch : String → Bool},
    readRegex body = some wildcards → new ("(?s)^" ++ String.ofList body ++ "$") = .ok isMatch →
      ∀ text : String, isMatch text = true ↔ Fits wildcards text.toList

/-! ### Globs -/

/-- One character of a glob. -/
def globWildcard : Char → Wildcard Char
  | '*' => .run
  | '?' => .one
  | c => .letter c

/-- One character of `glob_to_regex`. -/
def globCharToRegex : Char → List Char
  | '*' => ['.', '*']
  | '?' => ['.']
  | c => if c ∈ ['.', '+', '(', ')', '|', '[', ']', '\x7b', '\x7d', '^', '$', '\\'] then ['\\', c] else [c]

/-- `glob_to_regex`. -/
def globToRegex (glob : List Char) : List Char := glob.flatMap globCharToRegex

variable {c : Char}

theorem globWildcard_of_ne (hstar : c ≠ '*') (hone : c ≠ '?') : globWildcard c = .letter c := by
  unfold globWildcard
  split <;> simp_all

theorem globCharToRegex_of_ne (hstar : c ≠ '*') (hone : c ≠ '?') :
    globCharToRegex c = if c ∈ metacharacters then ['\\', c] else [c] := by
  unfold globCharToRegex
  split
  · exact absurd rfl hstar
  · exact absurd rfl hone
  · refine if_congr ?_ rfl rfl
    simp only [metacharacters, List.mem_cons, List.not_mem_nil, or_false]
    tauto

theorem head_globCharToRegex (c : Char) : ∃ d rest, globCharToRegex c = d :: rest ∧ d ≠ '*' := by
  by_cases hstar : c = '*'
  · exact ⟨'.', ['*'], by rw [hstar]; rfl, by decide⟩
  by_cases hone : c = '?'
  · exact ⟨'.', [], by rw [hone]; rfl, by decide⟩
  rw [globCharToRegex_of_ne hstar hone]
  split
  · exact ⟨'\\', [c], rfl, by decide⟩
  · exact ⟨c, [], rfl, hstar⟩

theorem head_globToRegex (glob rest : List Char) : globToRegex glob ≠ '*' :: rest := by
  intro heq
  cases glob with
  | nil => cases heq
  | cons c glob =>
    obtain ⟨d, tail, htail, hne⟩ := head_globCharToRegex c
    rw [globToRegex, List.flatMap_cons, htail] at heq
    exact hne (List.cons.inj heq).1

theorem readRegex_dot {body : List Char} (h : ∀ rest, body ≠ '*' :: rest) :
    readRegex ('.' :: body) = (readRegex body).map (.one :: ·) := by
  cases body with
  | nil => rfl
  | cons c rest =>
    have hc : c ≠ '*' := fun heq => h rest (by rw [heq])
    exact readRegex.eq_4 _ fun _ heq => hc (List.cons.inj heq).1

theorem readRegex_letter (body : List Char) (h : c ∉ metacharacters) :
    readRegex (c :: body) = (readRegex body).map (.letter c :: ·) := by
  have hslash : c ≠ '\\' := fun heq => h (by rw [heq]; decide)
  have hdot : c ≠ '.' := fun heq => h (by rw [heq]; decide)
  rw [readRegex, if_neg h] <;> simp_all

/-- A glob's regular expression is the glob's wildcards. -/
theorem readRegex_globToRegex : ∀ glob : List Char, readRegex (globToRegex glob) = some (glob.map globWildcard)
  | [] => rfl
  | c :: glob => by
    have ih := readRegex_globToRegex glob
    have hcons : globToRegex (c :: glob) = globCharToRegex c ++ globToRegex glob := List.flatMap_cons
    rw [hcons, List.map_cons]
    by_cases hstar : c = '*'
    · subst hstar
      show (readRegex (globToRegex glob)).map _ = _
      rw [ih]
      rfl
    by_cases hone : c = '?'
    · -- no translation begins with a star, so the dot stands alone
      subst hone
      show readRegex ('.' :: globToRegex glob) = _
      rw [readRegex_dot (head_globToRegex glob), ih]
      rfl
    rw [globWildcard_of_ne hstar hone, globCharToRegex_of_ne hstar hone]
    split
    · next hmeta =>
      show readRegex ('\\' :: c :: globToRegex glob) = _
      rw [readRegex, if_pos hmeta, ih, Option.map_some]
    · next hmeta =>
      show readRegex (c :: globToRegex glob) = _
      rw [readRegex_letter _ hmeta, ih, Option.map_some]

/-! ### Entries -/

/-- `parse_spec`: a tool's name, and a glob when there is one. -/
def parseSpec (spec : String) : String × Option (List Char) :=
  let spec := trim spec.toList
  if spec.getLast? = some ')' ∧ '(' ∈ spec then
    let tool := trim (spec.takeWhile (· ≠ '('))
    let inner := trim ((spec.dropWhile (· ≠ '(')).tail.dropLast)
    (String.ofList tool, if inner.isEmpty then none else some inner)
  else (String.ofList spec, none)

/-- `PolicySpec`. The modes of a policy are the engine's. -/
structure PolicySpec where
  mode : PermissionMode
  allow : List String
  ask : List String
  deny : List String
  deriving DecidableEq

/-- `Rule::allow`, `Rule::ask` and `Rule::deny`. -/
def Rule.of (effect : RuleEffect) (tool : String) : Rule where
  id := none
  effect
  tool
  pattern := none
  field := none

section

variable [RegexCrate]

/-- `Rule::matching`. -/
def Rule.matching (rule : Rule) (pattern : String) : Except String Rule := do
  let isMatch ← RegexCrate.new pattern
  pure { rule with pattern := some isMatch }

/-- The rule of an entry, from its glob. The anchors make the glob cover the whole of a text. -/
def compileGlob (base : Rule) : Option (List Char) → Except String Rule
  | some g =>
    (base.matching ("(?s)^" ++ String.ofList (globToRegex g) ++ "$")).mapError fun e =>
      s!"bad glob '{String.ofList g}': {e}"
  | none => .ok base

/-- `compile`. The errors are the texts of `AikitError::Other`. -/
def compile (effect : RuleEffect) (spec : String) : Except String Rule := do
  let trimmed := trim spec.toList
  refuseIf (('(' ∈ trimmed ∧ trimmed.getLast? ≠ some ')') ∨ (')' ∈ trimmed ∧ '(' ∉ trimmed))
    s!"malformed policy rule: '{spec}'"
  refuseIf ((parseSpec spec).1 = "") s!"policy rule has no tool name: '{spec}'"
  compileGlob (Rule.of effect (parseSpec spec).1) (parseSpec spec).2

/-- `PolicySpec::build`. -/
def PolicySpec.build (spec : PolicySpec) : Except String PermissionEngine := do
  let deny ← spec.deny.mapM (compile .deny)
  let ask ← spec.ask.mapM (compile .ask)
  let allow ← spec.allow.mapM (compile .allow)
  pure ⟨spec.mode, deny ++ ask ++ allow⟩

end

/-! ### How entries read -/

/-- A text somewhere in a value. -/
inductive Leaf : Value → String → Prop where
  | string (s : String) : Leaf (.string s) s
  | item {items : List Value} {v : Value} {s : String} (hmem : v ∈ items) (h : Leaf v s) : Leaf (.array items) s
  | field {fields : List (String × Value)} {key : String} {v : Value} {s : String} (hmem : (key, v) ∈ fields)
    (h : Leaf v s) : Leaf (.object fields) s

/-- A text, as a whole, is one the glob stands for. -/
def GlobMatches (glob : List Char) (text : String) : Prop := Fits (glob.map globWildcard) text.toList

instance (glob : List Char) (text : String) : Decidable (GlobMatches glob text) := by
  unfold GlobMatches
  infer_instance

/-- An entry applies to a call: the tool is its tool, or any, and some text of the input matches its glob. -/
def EntryMatches (entry tool : String) (input : Value) : Prop :=
  ((parseSpec entry).1 = "*" ∨ (parseSpec entry).1 = tool) ∧
    ∀ glob ∈ (parseSpec entry).2, ∃ text ∈ collectStrings input, GlobMatches glob text

instance (entry tool : String) (input : Value) : Decidable (EntryMatches entry tool input) := by
  unfold EntryMatches
  infer_instance

/-- How a policy reads. -/
def PolicySpec.reading (spec : PolicySpec) (tool : String) (input : Value) : Outcome :=
  if ∃ entry ∈ spec.deny, EntryMatches entry tool input then .deny s!"tool '{tool}' denied by rule"
  else
    match (spec.ask.map (·, Outcome.ask) ++ spec.allow.map (·, Outcome.allow)).find?
      fun entry => EntryMatches entry.1 tool input with
    | some entry => entry.2
    | none => match spec.mode with
      | .allow => .allow
      | .deny => .deny s!"tool '{tool}' denied by default (deny mode)"
      | .ask => .ask

mutual

theorem mem_collectStrings : ∀ {v : Value} {s : String}, s ∈ collectStrings v ↔ Leaf v s
  | .string t, s => by
    rw [collectStrings, List.mem_singleton]
    constructor
    · rintro rfl
      exact .string _
    · rintro ⟨⟩
      rfl
  | .array items, s => by
    rw [collectStrings, mem_collectItems]
    constructor
    · rintro ⟨v, hmem, h⟩
      exact .item hmem h
    · rintro (_ | ⟨hmem, h⟩)
      exact ⟨_, hmem, h⟩
  | .object fields, s => by
    rw [collectStrings, mem_collectFields]
    constructor
    · rintro ⟨key, v, hmem, h⟩
      exact .field hmem h
    · rintro (_ | _ | ⟨hmem, h⟩)
      exact ⟨_, _, hmem, h⟩
  | .null, s | .bool _, s | .number _, s => by
    rw [collectStrings]
    exact ⟨fun h => absurd h List.not_mem_nil, nofun⟩

theorem mem_collectItems : ∀ {items : List Value} {s : String},
    s ∈ collectItems items ↔ ∃ v ∈ items, Leaf v s
  | [], s => by simp [collectItems]
  | v :: rest, s => by
    rw [collectItems, List.mem_append, mem_collectStrings, mem_collectItems]
    simp

theorem mem_collectFields : ∀ {fields : List (String × Value)} {s : String},
    s ∈ collectFields fields ↔ ∃ key v, (key, v) ∈ fields ∧ Leaf v s
  | [], s => by simp [collectFields]
  | (key, v) :: rest, s => by
    rw [collectFields, List.mem_append, mem_collectStrings, mem_collectFields]
    constructor
    · rintro (h | ⟨key', w, hmem, h⟩)
      · exact ⟨key, v, List.mem_cons_self, h⟩
      · exact ⟨key', w, List.mem_cons_of_mem _ hmem, h⟩
    · rintro ⟨key', w, _ | ⟨_, hmem⟩, h⟩
      · exact .inl h
      · exact .inr ⟨key', w, hmem, h⟩

end

/-! ### The compiled engine -/

/-- What a matching rule decides when no rule denies. -/
def RuleEffect.unlessDenied : RuleEffect → Outcome
  | .ask => .ask
  | .allow | .deny => .allow

/-- What the scan of the rules finds: a matching deny rule, else what was found before it, else the first match. -/
theorem decideByRules_outcome (tool : String) (input : Value) (rules : List Rule) (index : ℕ)
    (first : Option PermissionDecision) :
    (decideByRules tool input index first rules).map (·.outcome) =
      if ∃ rule ∈ rules, rule.effect = .deny ∧ rule.matches tool input = true then
        some (.deny s!"tool '{tool}' denied by rule")
      else (first.map (·.outcome)).or
        ((rules.find? fun rule => rule.matches tool input).map fun rule => rule.effect.unlessDenied) := by
  induction rules generalizing index first with
  | nil => simp [decideByRules]
  | cons rule rest ih =>
    unfold decideByRules
    by_cases hmatches : rule.matches tool input = true
    · rw [if_pos hmatches, List.find?_cons_of_pos (p := fun rule : Rule => rule.matches tool input) hmatches]
      dsimp only
      cases heffect : rule.effect with
      | deny =>
        rw [if_pos ⟨rule, List.mem_cons_self, heffect, hmatches⟩]
        rfl
      | allow =>
        rw [ih]
        cases first <;> simp [heffect, RuleEffect.unlessDenied]
      | ask =>
        rw [ih]
        cases first <;> simp [heffect, RuleEffect.unlessDenied]
    · rw [if_neg hmatches, List.find?_cons_of_neg (p := fun rule : Rule => rule.matches tool input) hmatches, ih]
      simp [hmatches]

section

variable [RegexCrate]

theorem compileGlob_spec {base rule : Rule} {glob : Option (List Char)} (h : compileGlob base glob = .ok rule)
    (hpattern : base.pattern = none) (hfield : base.field = none) :
    rule.effect = base.effect ∧ ∀ tool input, rule.matches tool input = true ↔
      (base.tool = "*" ∨ base.tool = tool) ∧ ∀ g ∈ glob, ∃ text ∈ collectStrings input, GlobMatches g text := by
  cases glob with
  | none =>
    cases h
    refine ⟨rfl, fun tool input => ?_⟩
    unfold Rule.matches
    rw [hpattern]
    by_cases hname : base.tool ≠ "*" ∧ base.tool ≠ tool
    · rw [if_pos hname]
      simp [hname.1, hname.2]
    · rw [if_neg hname]
      simpa [or_iff_not_imp_left] using hname
  | some g =>
    obtain ⟨isMatch, hnew, hrule⟩ := bind_eq_ok.mp (mapError_eq_ok.mp h)
    cases hrule
    refine ⟨rfl, fun tool input => ?_⟩
    have hmatch := RegexCrate.isMatch_iff (readRegex_globToRegex g) hnew
    unfold Rule.matches
    dsimp only
    rw [hfield]
    by_cases hname : base.tool ≠ "*" ∧ base.tool ≠ tool
    · rw [if_pos hname]
      simp [hname.1, hname.2]
    · rw [if_neg hname, List.any_eq_true]
      simp only [hmatch, GlobMatches, Option.mem_def, Option.some.injEq, forall_eq']
      have hname' : base.tool = "*" ∨ base.tool = tool := by simpa [or_iff_not_imp_left] using hname
      exact (and_iff_right hname').symm

variable {effect : RuleEffect}

/-- A compiled entry is a rule of its effect that matches where the entry does. -/
theorem compile_matches {entry : String} {rule : Rule} (h : compile effect entry = .ok rule) :
    rule.effect = effect ∧
      ∀ tool input, rule.matches tool input = true ↔ EntryMatches entry tool input := by
  obtain ⟨_, _, h⟩ := bind_eq_ok.mp h
  obtain ⟨_, _, h⟩ := bind_eq_ok.mp h
  exact compileGlob_spec h rfl rfl

theorem exists_matching_iff {entries : List String} {rules : List Rule}
    (h : List.Forall₂ (fun entry rule => compile effect entry = .ok rule) entries rules) (tool : String)
    (input : Value) : (∃ rule ∈ rules, rule.effect = .deny ∧ rule.matches tool input = true) ↔
      effect = .deny ∧ ∃ entry ∈ entries, EntryMatches entry tool input := by
  induction h with
  | nil => simp
  | cons hrule _ ih =>
    obtain ⟨heffect, hmatches⟩ := compile_matches hrule
    simp only [List.mem_cons, exists_eq_or_imp, ih, heffect, hmatches]
    tauto

theorem find?_matching {entries : List String} {rules : List Rule}
    (h : List.Forall₂ (fun entry rule => compile effect entry = .ok rule) entries rules) (tool : String)
    (input : Value) :
    (rules.find? fun rule => rule.matches tool input).map (fun rule => rule.effect.unlessDenied) =
      (entries.find? fun entry => EntryMatches entry tool input).map fun _ => effect.unlessDenied := by
  induction h with
  | nil => rfl
  | @cons entry rule _ _ hrule _ ih =>
    obtain ⟨heffect, hmatches⟩ := compile_matches hrule
    by_cases hmatch : EntryMatches entry tool input
    · rw [List.find?_cons_of_pos (p := fun rule : Rule => rule.matches tool input) ((hmatches tool input).mpr hmatch),
        List.find?_cons_of_pos (by simpa using hmatch), Option.map_some, Option.map_some, heffect]
    · rw [List.find?_cons_of_neg (p := fun rule : Rule => rule.matches tool input)
          (fun hrule => hmatch ((hmatches tool input).mp hrule)),
        List.find?_cons_of_neg (by simpa using hmatch), ih]

/-- **The compiled engine decides as the policy reads.** -/
theorem PolicySpec.evaluate_build {spec : PolicySpec} {engine : PermissionEngine} (h : spec.build = .ok engine)
    (tool : String) (input : Value) : (engine.evaluateDetailed tool input).outcome = spec.reading tool input := by
  obtain ⟨deny, hdeny, h⟩ := bind_eq_ok.mp h
  obtain ⟨ask, hask, h⟩ := bind_eq_ok.mp h
  obtain ⟨allow, hallow, h⟩ := bind_eq_ok.mp h
  cases h
  replace hdeny := mapM_eq_ok hdeny
  replace hask := mapM_eq_ok hask
  replace hallow := mapM_eq_ok hallow
  have hscan := decideByRules_outcome tool input (deny ++ ask ++ allow) 0 none
  have hexists : (∃ rule ∈ deny ++ ask ++ allow, rule.effect = .deny ∧ rule.matches tool input = true) ↔
      ∃ entry ∈ spec.deny, EntryMatches entry tool input := by
    simp only [List.mem_append, or_and_right, exists_or, exists_matching_iff hdeny, exists_matching_iff hask,
      exists_matching_iff hallow]
    simp
  unfold PermissionEngine.evaluateDetailed PolicySpec.reading
  rw [if_congr hexists rfl rfl] at hscan
  by_cases hdenied : ∃ entry ∈ spec.deny, EntryMatches entry tool input
  · rw [if_pos hdenied] at hscan ⊢
    obtain ⟨decision, hdecision, houtcome⟩ := Option.map_eq_some_iff.mp hscan
    rw [hdecision]
    exact houtcome
  · rw [if_neg hdenied] at hscan ⊢
    have hnone : (spec.deny.find? fun entry => EntryMatches entry tool input) = none :=
      List.find?_eq_none.mpr fun entry hmem hmatch => hdenied ⟨entry, hmem, by simpa using hmatch⟩
    have hdeny_none : (deny.find? fun rule => rule.matches tool input) = none := by
      have hfound := find?_matching hdeny tool input
      rw [hnone, Option.map_none] at hfound
      exact Option.map_eq_none_iff.mp hfound
    rw [Option.map_none, Option.none_or, List.find?_append, List.find?_append, hdeny_none, Option.none_or,
      Option.map_or, find?_matching hask, find?_matching hallow] at hscan
    rw [List.find?_append, List.find?_map, List.find?_map]
    simp only [Function.comp_def]
    cases hask' : spec.ask.find? fun entry => EntryMatches entry tool input with
    | some entry =>
      rw [hask', Option.map_some, Option.some_or] at hscan
      obtain ⟨decision, hdecision, houtcome⟩ := Option.map_eq_some_iff.mp hscan
      rw [hdecision]
      exact houtcome
    | none =>
      cases hallow' : spec.allow.find? fun entry => EntryMatches entry tool input with
      | some entry =>
        rw [hask', hallow', Option.map_none, Option.none_or, Option.map_some] at hscan
        obtain ⟨decision, hdecision, houtcome⟩ := Option.map_eq_some_iff.mp hscan
        rw [hdecision]
        exact houtcome
      | none =>
        rw [hask', hallow'] at hscan
        rw [Option.map_eq_none_iff.mp hscan]
        rfl

end

/-! ### Entries as they are written -/

/-- An entry `name(glob)` is read as its name and its glob. -/
theorem parseSpec_entry {name glob : String} (hname : Unpadded name.toList) (hparen : '(' ∉ name.toList)
    (hglob : Unpadded glob.toList) (hne : glob ≠ "") :
    parseSpec (name ++ "(" ++ glob ++ ")") = (name, some glob.toList) := by
  have htext : (name ++ "(" ++ glob ++ ")").toList = name.toList ++ '(' :: (glob.toList ++ [')']) := by
    simp
  have hentry : Unpadded (name.toList ++ '(' :: (glob.toList ++ [')'])) := by
    refine ⟨fun c hc => ?_, fun c hc => ?_⟩
    · cases hlist : name.toList with
      | nil =>
        rw [hlist] at hc
        cases hc
        decide
      | cons d rest =>
        rw [hlist] at hc
        cases hc
        exact hname.1 _ (by rw [hlist]; rfl)
    · rw [← List.cons_append, ← List.append_assoc, List.getLast?_concat] at hc
      cases hc
      decide
  have htake : (name.toList ++ '(' :: (glob.toList ++ [')'])).takeWhile (fun c => decide (c ≠ '(')) = name.toList := by
    rw [List.takeWhile_append_of_pos fun c hc => by simpa using ne_of_mem_of_not_mem hc hparen]
    simp
  have hdrop : (name.toList ++ '(' :: (glob.toList ++ [')'])).dropWhile (fun c => decide (c ≠ '(')) =
      '(' :: (glob.toList ++ [')']) := by
    rw [List.dropWhile_append_of_pos fun c hc => by simpa using ne_of_mem_of_not_mem hc hparen]
    simp
  have hlast : (name.toList ++ '(' :: (glob.toList ++ [')'])).getLast? = some ')' := by
    rw [← List.cons_append, ← List.append_assoc, List.getLast?_concat]
  have hglob_ne : glob.toList.isEmpty = false := by
    rw [List.isEmpty_eq_false_iff]
    exact fun hnil => hne (String.toList_inj.mp hnil)
  unfold parseSpec
  dsimp only
  rw [htext, trim_unpadded hentry, if_pos ⟨hlast, by simp⟩, htake, hdrop, List.tail_cons, List.dropLast_concat,
    trim_unpadded hname, trim_unpadded hglob, hglob_ne, String.ofList_toList]
  rfl

/-- **A compiled policy decides as it reads**: by its first list with a matching entry, deny before ask before allow,
and else by its mode. And an entry `name(glob)` matches the calls of its tool, or of any tool for `*`, in whose input
some text as a whole is one the glob stands for. -/
theorem evaluate_agrees [RegexCrate] {spec : PolicySpec} {engine : PermissionEngine} (h : spec.build = .ok engine) :
    (∀ tool input, (engine.evaluateDetailed tool input).outcome = spec.reading tool input) ∧
    ∀ name glob tool : String, ∀ input : Value, Unpadded name.toList → '(' ∉ name.toList → Unpadded glob.toList →
      glob ≠ "" → (EntryMatches (name ++ "(" ++ glob ++ ")") tool input ↔
        (name = "*" ∨ name = tool) ∧ ∃ text, Leaf input text ∧ Fits (glob.toList.map globWildcard) text.toList) := by
  refine ⟨fun tool input => PolicySpec.evaluate_build h tool input, fun name glob tool input hname hparen hglob hne => ?_⟩
  unfold EntryMatches
  rw [parseSpec_entry hname hparen hglob hne]
  simp only [Option.mem_def, Option.some.injEq, forall_eq', mem_collectStrings, GlobMatches]

/-- A crate that knows the fragment and nothing else. -/
@[reducible] def fragmentCrate : RegexCrate where
  new pattern :=
    match readRegex (pattern.toList.drop 5).dropLast with
    | some wildcards => .ok fun text => accepts wildcards text.toList
    | none => .error "unsupported"
  isMatch_iff := by
    intro body wildcards isMatch hread hnew text
    have hbody : (("(?s)^" ++ String.ofList body ++ "$").toList.drop 5).dropLast = body := by
      simp
    rw [hbody, hread] at hnew
    cases hnew
    exact accepts_iff

theorem evaluate_agrees_sample :
    let spec : PolicySpec := ⟨.allow, [], [], ["Bash(*rm -rf ?*)"]⟩
    let engine : PermissionEngine :=
      ⟨.allow, [{ Rule.of .deny "Bash" with
        pattern := some fun text => accepts ("*rm -rf ?*".toList.map globWildcard) text.toList }]⟩
    (engine.evaluateDetailed "Bash" (.object [("command", .string "cd /\nrm -rf x")])).outcome =
      spec.reading "Bash" (.object [("command", .string "cd /\nrm -rf x")]) :=
  (@evaluate_agrees fragmentCrate ⟨.allow, [], [], ["Bash(*rm -rf ?*)"]⟩ _ rfl).1 "Bash"
    (.object [("command", .string "cd /\nrm -rf x")])

end AikitRuntime.Governance
