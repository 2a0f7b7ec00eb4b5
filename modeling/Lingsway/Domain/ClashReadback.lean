import Lingsway.Domain.SubscriptionRender

/-!
# Reading a Clash document back

The proxies of a document have different names, and the document reads back as
the proxies and their group exactly where the names are of Unicode's first plane.
-/
namespace Lingsway.Domain

open Library

section Names

/-- The name has characters of the first plane only. -/
def firstPlane (name : String) : Bool := name.toList.all Yaml.basic

end Names

section Fields

theorem plainMembers_append (ms ns : Members) :
    Json.plainMembers (ms ++ ns) = (Json.plainMembers ms && Json.plainMembers ns) := by
  induction ms with
  | nil => simp [Json.plainMembers]
  | cons m ms ih => simp [Json.plainMembers, ih, Bool.and_assoc]

/-- Fields that can be dumped, of which each has one of the keys in their order. -/
structure Fields (keys : List String) (ms : Members) : Prop where
  keys : (ms.map Prod.fst).Sublist keys
  plain : Json.plainMembers ms = true

variable {keys keys' : List String} {ms ns : Members}

theorem Fields.append (h : Fields keys ms) (h' : Fields keys' ns) : Fields (keys ++ keys') (ms ++ ns) := by
  refine ⟨?_, ?_⟩
  · rw [List.map_append]
    exact h.keys.append h'.keys
  · rw [plainMembers_append, h.plain, h'.plain]
    rfl

theorem Fields.plainValue (h : Fields keys ms) (hkeys : keys.Nodup) : (Json.obj ms).plainValue = true := by
  simp [Json.plainValue, h.plain, h.keys.nodup hkeys]

variable {d : Decoders}

end Fields

section Document

variable {d : Decoders}
variable {proxies : List Members} {rules : List String}

/-- The fixed lines: their indents, the entries of the outer mapping and the entries of the group's. -/
theorem fixed_lines :
    (Yaml.lineOf "proxies:".toList = ⟨0, "proxies:".toList⟩ ∧
      Yaml.lineOf "proxy-groups:".toList = ⟨0, "proxy-groups:".toList⟩ ∧
      Yaml.lineOf "  - name: SUBSCRIPTION".toList = ⟨2, "- name: SUBSCRIPTION".toList⟩ ∧
      Yaml.lineOf "    type: select".toList = ⟨4, "type: select".toList⟩ ∧
      Yaml.lineOf "    proxies:".toList = ⟨4, "proxies:".toList⟩ ∧
      Yaml.lineOf "rules:".toList = ⟨0, "rules:".toList⟩) ∧
    ((Yaml.Line.mk 0 "proxies:".toList).item = none ∧
      (Yaml.Line.mk 0 "proxies:".toList).entry = some ("proxies", []) ∧
      (Yaml.Line.mk 0 "proxy-groups:".toList).entry = some ("proxy-groups", []) ∧
      (Yaml.Line.mk 2 "- name: SUBSCRIPTION".toList).item = some ⟨4, "name: SUBSCRIPTION".toList⟩ ∧
      (Yaml.Line.mk 0 "rules:".toList).entry = some ("rules", [])) ∧
    (Yaml.Line.mk 4 "name: SUBSCRIPTION".toList).item = none ∧
      (Yaml.Line.mk 4 "name: SUBSCRIPTION".toList).entry = some ("name", "SUBSCRIPTION".toList) ∧
      (Yaml.Line.mk 4 "type: select".toList).entry = some ("type", "select".toList) ∧
      (Yaml.Line.mk 4 "proxies:".toList).entry = some ("proxies", []) ∧
      Yaml.inline "SUBSCRIPTION".toList = some (.str "SUBSCRIPTION") ∧
      Yaml.inline "select".toList = some (.str "select") := by
  decide +kernel

/-- What the lines of quoted strings say, if each is of the first plane. -/
theorem block_quoted (indent : ℕ) {ss : List String} (rest : List Yaml.Line) (hne : ss ≠ [])
    (hrest : ∀ line ∈ rest.head?, line.indent < indent) {fuel : ℕ} (hfuel : ss.length + 3 ≤ fuel) :
    Yaml.block fuel ((ss.map Json.dumpsAscii).map (Yaml.dashed indent) ++ rest) =
      if ss.all firstPlane = true then some (.arr (ss.map .str), rest) else none := by
  have hleaf : ∀ text ∈ ss.map Json.dumpsAscii, Yaml.Leaf text := by
    intro text htext
    obtain ⟨s, -, rfl⟩ := List.mem_map.mp htext
    exact Yaml.leaf_dumpsAscii s
  rw [Yaml.block_leaves indent rest (by simpa using hne) hleaf hrest (by simpa using hfuel), Yaml.mapM_inline_ascii]
  by_cases hplane : ss.all firstPlane = true
  · have hall : (ss.all fun s => s.toList.all Yaml.basic) = true := hplane
    rw [if_pos hplane, if_pos hall]
    rfl
  · have hall : ¬(ss.all fun s => s.toList.all Yaml.basic) = true := hplane
    rw [if_neg hplane, if_neg hall]
    rfl

theorem nested_dashed {indent below : ℕ} (h : indent < below) {texts : List (List Char)} (hne : texts ≠ [])
    (rest : List Yaml.Line) : Yaml.nested indent (texts.map (Yaml.dashed below) ++ rest) = true := by
  cases texts with
  | nil => exact absurd rfl hne
  | cons text texts => simp [Yaml.nested, Yaml.dashed, h]

theorem rules_entries {fuel : ℕ} (hne : rules ≠ []) (hplane : rules.all firstPlane = true)
    (hfuel : rules.length + 3 ≤ fuel) :
    Yaml.entries (fuel + 1) 0 (⟨0, "rules:".toList⟩ :: (rules.map Json.dumpsAscii).map (Yaml.dashed 2)) =
      some ([("rules", .arr (rules.map .str))], []) := by
  obtain ⟨-, ⟨-, -, -, -, hentry⟩, -⟩ := fixed_lines
  have hblock := block_quoted 2 [] hne (by simp) hfuel
  have hnested := nested_dashed (by norm_num : 0 < 2) (by simpa using hne : rules.map Json.dumpsAscii ≠ []) []
  rw [List.append_nil] at hblock hnested
  obtain ⟨below, rfl⟩ := Nat.exists_eq_succ_of_ne_zero (by omega : fuel ≠ 0)
  rw [Yaml.entries_nested hentry hnested, hblock, if_pos hplane, Option.bind_some, Yaml.entries_end (by simp)]
  rfl

/-- The group, up to the rules. -/
def group (names : List String) : Json :=
  .obj [("name", .str "SUBSCRIPTION"), ("type", .str "select"), ("proxies", .arr (names.map .str))]

theorem group_block {names : List String} (rest : List Yaml.Line) (hne : names ≠ [])
    (hrest : ∀ line ∈ rest.head?, line.indent < 4) {fuel : ℕ} (hfuel : names.length + 3 ≤ fuel) :
    Yaml.block (fuel + 4) (⟨4, "name: SUBSCRIPTION".toList⟩ :: ⟨4, "type: select".toList⟩ ::
        ⟨4, "proxies:".toList⟩ :: ((names.map Json.dumpsAscii).map (Yaml.dashed 6) ++ rest)) =
      if names.all firstPlane = true then some (group names, rest) else none := by
  obtain ⟨-, -, hitem, hname, htype, hmembers, hsubscription, hselect⟩ := fixed_lines
  have hnonempty : "SUBSCRIPTION".toList ≠ [] ∧ "select".toList ≠ [] := by decide
  have hblock := block_quoted 6 rest hne (fun line hline => (hrest line hline).trans (by norm_num)) hfuel
  have hnested := nested_dashed (by norm_num : 4 < 6) (by simpa using hne : names.map Json.dumpsAscii ≠ []) rest
  obtain ⟨below, rfl⟩ := Nat.exists_eq_succ_of_ne_zero (by omega : fuel ≠ 0)
  rw [Yaml.block_mapping hitem (by rw [hname]; rfl), Yaml.entries_inline hname hnonempty.1 hsubscription,
    Yaml.entries_inline htype hnonempty.2 hselect, Yaml.entries_nested hmembers hnested, hblock]
  by_cases hplane : names.all firstPlane = true
  · rw [if_pos hplane, if_pos hplane, Option.bind_some, Yaml.entries_end hrest]
    have hkeys : (["name", "type", "proxies"] : List String).Nodup := by decide
    simp only [Option.map_some, Option.bind_some, Yaml.mapping, List.map_cons, List.map_nil, if_pos hkeys]
    rfl
  · rw [if_neg hplane, if_neg hplane]
    rfl

/-- The groups and the rules. -/
theorem groups_entries {names : List String} {fuel : ℕ} (hnames : names ≠ []) (hrules : rules ≠ [])
    (hplane : rules.all firstPlane = true) (hfuel : names.length + rules.length + 9 ≤ fuel) :
    Yaml.entries (fuel + 1) 0 (⟨0, "proxy-groups:".toList⟩ :: ⟨2, "- name: SUBSCRIPTION".toList⟩ ::
        ⟨4, "type: select".toList⟩ :: ⟨4, "proxies:".toList⟩ :: ((names.map Json.dumpsAscii).map (Yaml.dashed 6) ++
        ⟨0, "rules:".toList⟩ :: (rules.map Json.dumpsAscii).map (Yaml.dashed 2))) =
      if names.all firstPlane = true then
        some ([("proxy-groups", .arr [group names]), ("rules", .arr (rules.map .str))], [])
      else none := by
  obtain ⟨-, ⟨-, -, hentry, hitem, -⟩, -⟩ := fixed_lines
  have hnested : ∀ lines, Yaml.nested 0 (⟨2, "- name: SUBSCRIPTION".toList⟩ :: lines) = true := by
    intro lines
    simp [Yaml.nested]
  obtain ⟨fuel, rfl⟩ := Nat.exists_eq_add_of_le (by omega : 6 ≤ fuel)
  obtain ⟨below, rfl⟩ := Nat.exists_eq_succ_of_ne_zero (by omega : fuel ≠ 0)
  have hblock := group_block (⟨0, "rules:".toList⟩ :: (rules.map Json.dumpsAscii).map (Yaml.dashed 2)) hnames
    (by simp) (by omega : names.length + 3 ≤ below + 1)
  have hread := rules_entries hrules hplane (by omega : rules.length + 3 ≤ below + 6)
  rw [show 6 + (below + 1) = below + 7 by omega, Yaml.entries_nested hentry (hnested _),
    Yaml.block_sequence (by rw [hitem]; rfl), Yaml.items_entry hitem, hblock]
  by_cases hfirst : names.all firstPlane = true
  · rw [if_pos hfirst, if_pos hfirst, Option.bind_some, Yaml.items_end (by simp)]
    simp only [Option.map_some, Option.bind_some]
    rw [hread]
    rfl
  · rw [if_neg hfirst, if_neg hfirst]
    rfl

def Content.read : Content → Option Json
  | .utf8 text => Yaml.read text
  | .base64 _ => none

end Document

end Lingsway.Domain
