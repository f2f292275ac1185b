import RuleCanvas.Proofs.Json.Members
import RuleCanvas.Proofs.Rule.Cone

/-! # Unfolding a graph

The rule of a node is the unfolding of the graph behind it: a node that feeds several inputs is
written out at each, and a node that comes again on its own path is cut off. The walk of the
compiler is such an unfolding on every graph whose edges join existing ports, and there is one only.
It ends, as the nodes on a path differ. Where the graph has no cycle nothing is cut off, whatever is
shared, and all that is missing from a rule is what nobody wired.
-/

namespace RuleCanvas

open Relation

/-! ## Places in a value -/

/-- The value at a place, a list of steps into members and items. -/
def Json.at? : Json → List Form.Step → Option Json
  | v, [] => some v
  | .obj members, .name name :: place => (find? name members).bind fun v => v.at? place
  | .arr items, .item index :: place => items[index]?.bind fun v => v.at? place
  | _, _ :: _ => none

namespace Json

variable {v : Json} {place : List Form.Step}

/-- Whether `null` stands at a place. -/
def NullAt (v : Json) (place : List Form.Step) : Prop := v.at? place = some .null

instance (v : Json) (place : List Form.Step) : Decidable (v.NullAt place) :=
  match h : v.at? place with
  | some .null => .isTrue h
  | none => .isFalse fun hnull => nomatch h.symm.trans hnull
  | some (.bool _) | some (.int _) | some (.float _) | some (.str _) | some (.arr _)
  | some (.obj _) => .isFalse fun hnull => nomatch h.symm.trans hnull

theorem not_nullAt_literal (l : Literal) : ¬ l.toJson.NullAt place := by
  cases l <;> cases place <;> simp [NullAt, Literal.toJson, at?]

theorem nullAt_null : null.NullAt place ↔ place = [] := by
  cases place <;> simp [NullAt, at?]

theorem nullAt_member {name : String} :
    (obj [(name, v)]).NullAt place ↔ ∃ rest, place = .name name :: rest ∧ v.NullAt rest := by
  cases place with
  | nil => simp [NullAt, at?]
  | cons step rest =>
      cases step with
      | name other =>
          rw [NullAt, at?, find?_cons]
          split
          next hname => simp [hname, NullAt]
          next hname => simp [find?, Ne.symm hname]
      | item | number => simp [NullAt, at?]

theorem nullAt_item {items : List Json} :
    (arr items).NullAt place ↔
      ∃ index rest v, place = .item index :: rest ∧ items[index]? = some v ∧ v.NullAt rest := by
  cases place with
  | nil => simp [NullAt, at?]
  | cons step rest =>
      cases step with
      | name | number => simp [NullAt, at?]
      | item index => simp [NullAt, at?, Option.bind_eq_some_iff]

/-- The operands of an operator with several are in a list. -/
theorem nullAt_operands {name : String} {items : List Json} :
    (obj [(name, arr items)]).NullAt place ↔ ∃ index rest v,
      place = .name name :: .item index :: rest ∧ items[index]? = some v ∧ v.NullAt rest := by
  rw [nullAt_member]
  constructor
  · rintro ⟨_, rfl, hnull⟩
    obtain ⟨index, rest, v, rfl, hv, hnull⟩ := nullAt_item.mp hnull
    exact ⟨index, rest, v, rfl, hv, hnull⟩
  · rintro ⟨index, rest, v, rfl, hv, hnull⟩
    exact ⟨_, rfl, nullAt_item.mpr ⟨index, rest, v, rfl, hv, hnull⟩⟩

end Json

namespace Payload

/-- The value of an input that is not wired. -/
def unwired (p : Payload) (index : Nat) : Json :=
  if p = .choice then [Json.bool true, .str "PRESENT"].getD index .null else .null

/-- Where the rule of a node has the value of an input. -/
def operandPlace (p : Payload) (index : Nat) : List Form.Step :=
  match p with
  | logic .not => [.name "not"]
  | logic o => [.name o.symbol, .item index]
  | compare o => [.name o.symbol, .item index]
  | choice => [.name "if", .item index]
  | _ => []

variable {p : Payload} {input : Nat → Option Json} {place : List Form.Step}

/-- An operator has a `null` just where an operand has one. -/
theorem nullAt_of_operands {name : String} {items : List Json} {count : Nat}
    (hplace : ∀ index < count, p.operandPlace index = [.name name, .item index])
    (hitems : ∀ index v, items[index]? = some v ↔
      index < count ∧ (input index).getD (p.unwired index) = v) :
    (Json.obj [(name, .arr items)]).NullAt place ↔ ∃ index < count, ∃ rest,
      place = p.operandPlace index ++ rest ∧
      ((input index).getD (p.unwired index)).NullAt rest := by
  rw [Json.nullAt_operands]
  constructor
  · rintro ⟨index, rest, v, rfl, hv, hnull⟩
    obtain ⟨hindex, rfl⟩ := (hitems index v).mp hv
    exact ⟨index, hindex, rest, by rw [hplace index hindex]; rfl, hnull⟩
  · rintro ⟨index, hindex, rest, rfl, hnull⟩
    exact ⟨index, rest, _, by rw [hplace index hindex]; rfl, (hitems index _).mpr ⟨hindex, rfl⟩,
      hnull⟩

theorem map_range_eq_some_iff (value : Nat → Json) (count index : Nat) (v : Json) :
    ((List.range count).map value)[index]? = some v ↔ index < count ∧ value index = v := by
  rw [List.getElem?_map, Option.map_eq_some_iff]
  constructor
  · rintro ⟨found, hfound, rfl⟩
    obtain ⟨hindex, rfl⟩ := List.getElem?_eq_some_iff.mp hfound
    simpa using hindex
  · rintro ⟨hindex, rfl⟩
    exact ⟨index, List.getElem?_range hindex, rfl⟩

/-- The rule of a node other than a Result has a `null` just where an input that
it reads has one. -/
theorem nullAt_rule (hp : p ≠ .result) :
    (p.rule input).NullAt place ↔ ∃ index < p.readCount, ∃ rest,
      place = p.operandPlace index ++ rest ∧
      ((input index).getD (p.unwired index)).NullAt rest := by
  cases p with
  | constant l => simp [rule, readCount, Json.not_nullAt_literal]
  | var key =>
      have hkey : ∀ rest, ¬ (Json.str key).NullAt rest := fun _ =>
        Json.not_nullAt_literal (.str key)
      simp [rule, readCount, Json.nullAt_member, hkey]
  | logic o =>
      have hpair := map_range_eq_some_iff (fun index => (input index).getD .null) 2
      cases o with
      | not =>
          rw [rule, Json.nullAt_member]
          constructor
          · rintro ⟨rest, rfl, hnull⟩
            exact ⟨0, Nat.one_pos, rest, rfl, hnull⟩
          · rintro ⟨index, hindex, rest, rfl, hnull⟩
            obtain rfl : index = 0 := Nat.lt_one_iff.mp hindex
            exact ⟨rest, rfl, hnull⟩
      | and => exact nullAt_of_operands (fun _ _ => rfl) hpair
      | or => exact nullAt_of_operands (fun _ _ => rfl) hpair
  | compare o =>
      exact nullAt_of_operands (fun _ _ => rfl)
        (map_range_eq_some_iff (fun index => (input index).getD .null) 2)
  | choice =>
      exact nullAt_of_operands (fun _ _ => rfl)
        (map_range_eq_some_iff (fun index => (input index).getD (choice.unwired index)) 3)
  | result => exact absurd rfl hp

/-- Of the values of unwired inputs, those of logic and of comparisons are `null`, and that of the
branch of a choice for what is false. -/
theorem nullAt_unwired {index : Nat} (hread : index < p.readCount) :
    (p.unwired index).NullAt place ↔
      place = [] ∧ (p.kind = .logic ∨ p.kind = .compare ∨ p = .choice ∧ index = 2) := by
  cases p with
  | constant | var | result => exact absurd hread (Nat.not_lt_zero _)
  | logic | compare => simp [unwired, kind, Json.nullAt_null]
  | choice =>
      have htrue : ¬ (Json.bool true).NullAt place := Json.not_nullAt_literal (.bool true)
      have hpresent : ¬ (Json.str "PRESENT").NullAt place :=
        Json.not_nullAt_literal (.str "PRESENT")
      have hindex : index < 3 := hread
      obtain rfl | rfl | rfl : index = 0 ∨ index = 1 ∨ index = 2 := by omega
      · simp [unwired, kind, htrue]
      · simp [unwired, kind, hpresent]
      · simp [unwired, kind, Json.nullAt_null]

end Payload

namespace Graph

variable {α : Type} {c : Catalog} {g : Graph α} {cuts : Prop} {depth : Nat} {path : List String}
  {id source : String} {index : Nat} {v w : Json} {place : List Form.Step}

/-- What feeds an input is a node with an output, and an edge leads from there. -/
theorem Linked.of_sourceAt? (hg : g.Linked c) (hsource : g.sourceAt? id index = some source) :
    g.Feeds source id ∧ ∃ p, g.payload? source = some p ∧ p ≠ .result := by
  obtain ⟨e, hin, rfl⟩ := Option.map_eq_some_iff.mp hsource
  obtain ⟨he, htarget⟩ := (hg.incoming?_eq_some_iff _ e).mp hin
  obtain ⟨p, _, hp, _, hlt, _⟩ := hg.fits e he
  refine ⟨⟨e, he, rfl, congrArg PortRef.node htarget⟩, p, hp, ?_⟩
  rintro rfl
  exact Nat.not_lt_zero _ hlt

/-! ## Unfoldings -/

/-- A value is the unfolding of a graph from a node, with the nodes in `path` above it. A node that
is above itself is cut off where `cuts` allows it. -/
inductive Unfolds (g : Graph α) (cuts : Prop) : List String → String → Json → Prop
  | cut {path : List String} {id : String} (hcuts : cuts) (hseen : id ∈ path) :
      Unfolds g cuts path id .null
  | node {path : List String} {id : String} {p : Payload} {value : Nat → Json} (hnew : id ∉ path)
      (hpayload : g.payload? id = some p)
      (hinputs : ∀ index < p.readCount, ∀ source, g.sourceAt? id index = some source →
        Unfolds g cuts (id :: path) source (value index)) :
      Unfolds g cuts path id (p.rule fun index => (g.sourceAt? id index).map fun _ => value index)

/-- There is at most one unfolding. -/
theorem Unfolds.unique {cuts' : Prop} (hv : g.Unfolds cuts path id v)
    (hw : g.Unfolds cuts' path id w) : v = w := by
  induction hv generalizing w with
  | cut _ hseen =>
      cases hw with
      | cut => rfl
      | node hnew => exact absurd hseen hnew
  | node hnew hpayload _ ih =>
      cases hw with
      | cut _ hseen => exact absurd hseen hnew
      | node _ hpayload' hinputs' =>
          obtain rfl := Option.some_inj.mp (hpayload.symm.trans hpayload')
          apply Payload.rule_congr
          intro index hread
          refine Option.map_congr fun source hsource => ?_
          exact ih index hread source hsource (hinputs' index hread source hsource)

/-- With depth for every node that is not on the path yet, the walk is an unfolding. In a graph
without a cycle it never comes back to the nodes above it, to which the node leads. -/
theorem Linked.unfolds_resolve (hg : g.Linked c) (hnode : g.hasNode id = true)
    (hpath : g.IsPath path) (hdepth : g.nodes.length < depth + path.length)
    (hcuts : cuts ∨ (g.Acyclic ∧ ∀ x ∈ path, TransGen g.Feeds id x)) :
    g.Unfolds cuts path id (g.resolve depth path id) := by
  -- Each step down uses up one unit of depth and puts one more node on the path.
  induction depth generalizing path id with
  | zero =>
      have hle := hpath.length_le
      omega
  | succ depth ih =>
      rw [resolve]
      split
      next hcontains =>
        have hseen : id ∈ path := by simpa using hcontains
        rcases hcuts with hcuts | ⟨hacyclic, habove⟩
        · exact .cut hcuts hseen
        · exact absurd (habove id hseen) (hacyclic id)
      next hcontains =>
        have hnew : id ∉ path := by simpa using hcontains
        obtain ⟨n, hn⟩ := Option.isSome_iff_exists.mp hnode
        have hpayload := payload?_of_node? hn
        let value : Nat → Json := fun index =>
          ((g.sourceAt? id index).map (g.resolve depth (id :: path))).getD .null
        have hvalue : ∀ index, ((g.incoming? ⟨id, index⟩).map fun e =>
            g.resolve depth (id :: path) e.source.node) =
              (g.sourceAt? id index).map fun _ => value index := by
          intro index
          cases hin : g.incoming? ⟨id, index⟩ <;> simp [value, sourceAt?, hin]
        rw [hpayload]
        dsimp only
        rw [funext hvalue]
        refine .node hnew hpayload fun index _ source hsource => ?_
        obtain ⟨hfeeds, p, hp, _⟩ := hg.of_sourceAt? hsource
        rw [show value index = g.resolve depth (id :: path) source by simp [value, hsource]]
        refine ih (hasNode_of_payload? hp) (hpath.cons hnew hpayload) ?_
          (hcuts.imp_right fun habove => ⟨habove.1, fun x hx => ?_⟩)
        · rw [List.length_cons]
          omega
        · rcases List.mem_cons.mp hx with rfl | hx
          · exact .single hfeeds
          · exact .head hfeeds (habove.2 x hx)

/-- The rule of a node is an unfolding. -/
theorem Linked.unfolds_compileNode (hg : g.Linked c) (hnode : g.hasNode id = true)
    (hcuts : cuts ∨ g.Acyclic) : g.Unfolds cuts [] id (g.compileNode id) :=
  hg.unfolds_resolve hnode (.nil g) (Nat.lt_succ_self _)
    (hcuts.imp_right fun hacyclic => ⟨hacyclic, List.forall_mem_nil _⟩)

theorem Linked.unfolds_iff (hg : g.Linked c) (hnode : g.hasNode id = true) :
    g.Unfolds True [] id v ↔ v = g.compileNode id := by
  have hwalk : g.Unfolds True [] id (g.compileNode id) :=
    hg.unfolds_compileNode hnode (.inl trivial)
  constructor
  · intro hv
    exact hv.unique hwalk
  · rintro rfl
    exact hwalk

/-- More depth than there are nodes changes nothing. -/
theorem Linked.resolve_add (hg : g.Linked c) (hnode : g.hasNode id = true) (more : Nat) :
    g.resolve (g.nodes.length + 1 + more) [] id = g.compileNode id := by
  have hdepth : g.nodes.length < g.nodes.length + 1 + more + ([] : List String).length := by
    rw [List.length_nil]
    omega
  exact (hg.unfolds_iff hnode).mp
    (hg.unfolds_resolve hnode (.nil g) hdepth (.inl trivial))

/-- What feeds a Result is no Result. -/
theorem Linked.of_mem_roots (hg : g.Linked c) (hroot : id ∈ g.roots) :
    ∃ p, g.payload? id = some p ∧ p ≠ .result := by
  obtain ⟨n, _, hsource⟩ := List.mem_filterMap.mp hroot
  exact (hg.of_sourceAt? hsource).2

/-! ## What is missing from a rule -/

/-- A place in the rule of a node that is left open: an operand of logic or of a comparison that
nobody wired, or the branch of a choice for what is false. -/
inductive OpenAt (g : Graph α) : String → List Form.Step → Prop
  | operand {id : String} {p : Payload} {index : Nat} (hpayload : g.payload? id = some p)
      (hkind : p.kind = .logic ∨ p.kind = .compare) (hread : index < p.readCount)
      (hfree : g.sourceAt? id index = none) : OpenAt g id (p.operandPlace index)
  | branch {id : String} (hpayload : g.payload? id = some .choice)
      (hfree : g.sourceAt? id 2 = none) : OpenAt g id (Payload.choice.operandPlace 2)
  | inner {id source : String} {p : Payload} {index : Nat} {place : List Form.Step}
      (hpayload : g.payload? id = some p) (hread : index < p.readCount)
      (hsource : g.sourceAt? id index = some source) (hopen : OpenAt g source place) :
      OpenAt g id (p.operandPlace index ++ place)

/-- What is open at a node is open at an input that it reads, or behind it. -/
theorem openAt_iff {p : Payload} (hpayload : g.payload? id = some p) :
    g.OpenAt id place ↔ ∃ index < p.readCount, ∃ rest, place = p.operandPlace index ++ rest ∧
      ((g.sourceAt? id index = none ∧ (p.unwired index).NullAt rest) ∨
        ∃ source, g.sourceAt? id index = some source ∧ g.OpenAt source rest) := by
  constructor
  · intro hopen
    cases hopen with
    | operand hpayload' hkind hread hfree =>
        obtain rfl := Option.some_inj.mp (hpayload.symm.trans hpayload')
        have hnull : (p.unwired _).NullAt [] := (Payload.nullAt_unwired hread).mpr
          ⟨rfl, hkind.elim .inl fun h => .inr (.inl h)⟩
        exact ⟨_, hread, [], (List.append_nil _).symm, .inl ⟨hfree, hnull⟩⟩
    | branch hpayload' hfree =>
        obtain rfl := Option.some_inj.mp (hpayload.symm.trans hpayload')
        exact ⟨2, by decide, [], rfl, .inl ⟨hfree, rfl⟩⟩
    | inner hpayload' hread hsource hopen =>
        obtain rfl := Option.some_inj.mp (hpayload.symm.trans hpayload')
        exact ⟨_, hread, _, rfl, .inr ⟨_, hsource, hopen⟩⟩
  · rintro ⟨index, hread, rest, rfl, ⟨hfree, hnull⟩ | ⟨source, hsource, hopen⟩⟩
    · obtain ⟨rfl, hkind⟩ := (Payload.nullAt_unwired hread).mp hnull
      rw [List.append_nil]
      rcases hkind with hkind | hkind | ⟨rfl, rfl⟩
      · exact .operand hpayload (.inl hkind) hread hfree
      · exact .operand hpayload (.inr hkind) hread hfree
      · exact .branch hpayload hfree
    · exact .inner hpayload hread hsource hopen

/-- An unfolding in which nothing is cut off has a `null` just where something is open, unless
it is that of a Result. -/
theorem Linked.nullAt_iff (hg : g.Linked c) (hv : g.Unfolds False path id v)
    (hresult : g.payload? id ≠ some .result) : v.NullAt place ↔ g.OpenAt id place := by
  induction hv generalizing place with
  | cut hcuts => exact hcuts.elim
  | node hnew hpayload hinputs ih =>
      rename_i path id p value
      have hp : p ≠ .result := by
        rintro rfl
        exact hresult hpayload
      rw [Payload.nullAt_rule hp, openAt_iff hpayload]
      refine exists_congr fun index => and_congr_right fun hread => exists_congr fun rest =>
        and_congr_right fun _ => ?_
      cases hsource : g.sourceAt? id index with
      | none => simp
      | some source =>
          obtain ⟨_, q, hq, hother⟩ := hg.of_sourceAt? hsource
          have hsame : (value index).NullAt rest ↔ g.OpenAt source rest :=
            ih index hread source hsource (by simpa [hq] using hother)
          simp [hsame]

/-- The rule of a node has a `null` just where something is open, but that of a Result is one. -/
theorem Linked.nullAt_compileNode (hg : g.Linked c) (hacyclic : g.Acyclic)
    (hnode : g.hasNode id = true) :
    (g.compileNode id).NullAt place ↔
      g.OpenAt id place ∨ (g.payload? id = some .result ∧ place = []) := by
  have hv : g.Unfolds False [] id (g.compileNode id) := hg.unfolds_compileNode hnode (.inr hacyclic)
  by_cases hresult : g.payload? id = some .result
  · have hnull : g.compileNode id = .null := by
      rw [compileNode, resolve, hresult]
      rfl
    have hclosed : ¬ g.OpenAt id place := by
      rw [openAt_iff hresult]
      rintro ⟨index, hread, _⟩
      exact Nat.not_lt_zero _ hread
    simp [hnull, Json.nullAt_null, hresult, hclosed]
  · simp [hg.nullAt_iff hv hresult, hresult]

/-- In whatever graph the edges join existing ports with types that fit, be there cycles or not: the
walk from a node ends, as depth for all nodes is enough, and the rule of the node is the one
unfolding of the graph from there, which cuts off just the nodes that are above themselves; the rule
tree has the unfoldings of the nodes that feed the Results, in order. If there is no cycle nothing
is cut off, and a `null` stands just where an operand of logic or of a comparison or the last branch
of a choice is not wired; only the rule of a Result, if that is asked for, is `null` as a whole. -/
theorem compile_unfolds (c : Catalog) (g : Graph α) (hg : g.Linked c) :
    (∀ id, g.hasNode id = true →
      (∀ more, g.resolve (g.nodes.length + 1 + more) [] id = g.compileNode id) ∧
      (∀ v, g.Unfolds True [] id v ↔ v = g.compileNode id) ∧
      (g.Acyclic → g.Unfolds False [] id (g.compileNode id) ∧
        ∀ place, (g.compileNode id).NullAt place ↔
          g.OpenAt id place ∨ (g.payload? id = some .result ∧ place = []))) ∧
    ∃ rules, g.ruleTree = .obj [("status_rules", .arr rules)] ∧
      List.Forall₂ (fun root rule => g.Unfolds True [] root rule ∧
        (g.Acyclic → g.Unfolds False [] root rule ∧
          ∀ place, rule.NullAt place ↔ g.OpenAt root place)) g.roots rules := by
  refine ⟨fun id hnode => ⟨hg.resolve_add hnode, fun v => hg.unfolds_iff hnode,
    fun hacyclic => ⟨hg.unfolds_compileNode hnode (.inr hacyclic),
      fun place => hg.nullAt_compileNode hacyclic hnode⟩⟩, g.rules, rfl, ?_⟩
  rw [rules_eq_map_roots, List.forall₂_map_right_iff, List.forall₂_same]
  intro root hroot
  obtain ⟨p, hp, hother⟩ := hg.of_mem_roots hroot
  have hnode := hasNode_of_payload? hp
  refine ⟨hg.unfolds_compileNode hnode (.inl trivial), fun hacyclic => ?_⟩
  have hv : g.Unfolds False [] root (g.compileNode root) :=
    hg.unfolds_compileNode hnode (.inr hacyclic)
  exact ⟨hv, fun place => hg.nullAt_iff hv (by simpa [hp] using hother)⟩

/-- Two choices that feed each other, and a variable that is compared with itself. -/
theorem compile_unfolds_cycle_and_sharing :
    let add (kind : String) : Desk.Turn :=
      .edit (.addNode (.str kind) (.pair (.int 0) (.int 0)) .null .null false)
    let wire (source target : String) (port : Nat) : Desk.Turn :=
      .edit (.connectRefs ⟨source, 0⟩ ⟨target, port⟩ .null)
    let start := Desk.fresh .attendance ⟨.counting, []⟩
    let unguarded : Desk Double := { start with store := { start.store with guarded := false } }
    let g := ([add "If", add "If", add "Result", wire "n1" "n2" 1, wire "n2" "n1" 1,
      wire "n1" "n3" 0].foldl Desk.play unguarded).graph
    let h := ([add "Variable", add "Compare", add "Result", wire "n1" "n2" 0, wire "n1" "n2" 1,
      wire "n2" "n3" 0].foldl Desk.play start).graph
    (¬ g.Acyclic ∧ g.Unfolds True [] "n1" (g.compileNode "n1") ∧
      (g.compileNode "n1").NullAt [.name "if", .item 1, .name "if", .item 1]) ∧
    (h.Acyclic ∧ h.Unfolds False [] "n2" (h.compileNode "n2") ∧
      ∀ place, ¬ (h.compileNode "n2").NullAt place) := by
  intro add wire start unguarded g h
  have hg := Desk.linked_foldl_play (d := unguarded) (.empty .attendance)
    [add "If", add "If", add "Result", wire "n1" "n2" 1, wire "n2" "n1" 1, wire "n1" "n3" 0]
  have hedges : g.edges = [⟨"n4", ⟨"n1", 0⟩, ⟨"n2", 1⟩⟩, ⟨"n5", ⟨"n2", 0⟩, ⟨"n1", 1⟩⟩,
      ⟨"n6", ⟨"n1", 0⟩, ⟨"n3", 0⟩⟩] := by decide +kernel
  have hcyclic : TransGen g.Feeds "n1" "n1" :=
    .head (b := "n2") ⟨_, hedges ▸ List.mem_cons_self, rfl, rfl⟩
      (.single ⟨_, hedges ▸ List.mem_cons_of_mem _ List.mem_cons_self, rfl, rfl⟩)
  obtain ⟨_, hcut, _⟩ := (compile_unfolds _ g hg).1 "n1" (by decide +kernel)
  have hh := ((Desk.Sound.fresh .attendance ⟨.counting, []⟩).foldl_play
    [add "Variable", add "Compare", add "Result", wire "n1" "n2" 0, wire "n1" "n2" 1,
      wire "n2" "n3" 0]).2
  obtain ⟨_, _, hwhole⟩ := (compile_unfolds _ h hh.toLinked).1 "n2" (by decide +kernel)
  obtain ⟨hshared, hnull⟩ := hwhole hh.acyclic
  have hwired : ∀ index < 2, h.sourceAt? "n2" index = some "n1" := by decide +kernel
  have hvar : h.payload? "n1" = some (.var "minutes_late") := by decide +kernel
  have hcompare : h.payload? "n2" = some (.compare .greater) := by decide +kernel
  refine ⟨⟨fun hacyclic => hacyclic _ hcyclic, (hcut _).mpr rfl, by decide +kernel⟩,
    hh.acyclic, hshared, fun place => ?_⟩
  rw [hnull, openAt_iff hcompare]
  rintro (⟨index, hindex, rest, -, ⟨hfree, -⟩ | ⟨source, hsource, hopen⟩⟩ | ⟨hresult, -⟩)
  · simp [hwired index hindex] at hfree
  · obtain rfl := Option.some_inj.mp ((hwired index hindex).symm.trans hsource)
    obtain ⟨_, hread, _⟩ := (openAt_iff hvar).mp hopen
    exact Nat.not_lt_zero _ hread
  · simp [hcompare] at hresult

/-- The rule of a Result is `null` though its input is wired and nothing behind it is open. -/
theorem compile_unfolds_result :
    let add (kind : String) (fields : Json.Members) : Desk.Turn :=
      .edit (.addNode (.str kind) (.pair (.int 0) (.int 0)) (.obj fields) .null false)
    let g := ([add "Constant" [("valueType", .str "number"), ("value", .int 5)], add "Result" [],
      .edit (.connectRefs ⟨"n1", 0⟩ ⟨"n2", 0⟩ .null)].foldl Desk.play
        (Desk.fresh .attendance ⟨.counting, []⟩)).graph
    g.Acyclic ∧ g.sourceAt? "n2" 0 = some "n1" ∧
    ¬ ∀ id, g.hasNode id = true → ∀ place, (g.compileNode id).NullAt place → g.OpenAt id place := by
  intro add g
  have hg := ((Desk.Sound.fresh .attendance ⟨.counting, []⟩).foldl_play
    [add "Constant" [("valueType", .str "number"), ("value", .int 5)], add "Result" [],
      .edit (.connectRefs ⟨"n1", 0⟩ ⟨"n2", 0⟩ .null)]).2
  have hresult : g.payload? "n2" = some .result := by decide +kernel
  refine ⟨hg.acyclic, by decide +kernel, fun hopen => ?_⟩
  have hmissing : g.OpenAt "n2" [] := hopen "n2" (by decide +kernel) [] (by decide +kernel)
  obtain ⟨_, hread, _⟩ := (openAt_iff hresult).mp hmissing
  exact Nat.not_lt_zero _ hread

end Graph

end RuleCanvas
