import Forail.Utils.NamedUrlCounters

/-!
# Reading back the URL of an object

The encoded fields hold neither delimiter, so the components of a generated URL come
back from the splits, and the walk that reads them asks for them in the order in which
they were written.
-/

namespace Forail.NamedUrl

open Forail.Texts Forail.PercentDecoding Forail.StackWalk

/-! ## One field -/

def encodeChar (char : Char) : Text :=
  if char = '+' then bracketed else (urlPathReservedCharset.lookup char).getD [char]

def escapeChar (char : Char) : Text :=
  if char = '+' then namedUrlResDilimiterEncode
  else (urlPathReservedCharset.lookup char).getD [char]

def escapeUri (text : Text) : Text := text.flatMap escapeChar

variable {char : Char} {escape text rest : Text} {values : List Text}

theorem lookup_mem (hlookup : urlPathReservedCharset.lookup char = some escape) :
    (char, escape) ∈ urlPathReservedCharset := by
  obtain ⟨before, after, hentries, -⟩ := List.lookup_eq_some_iff.mp hlookup
  rw [hentries]
  exact List.mem_append_right _ List.mem_cons_self

theorem delimiter_not_mem (hescape : (char, escape) ∈ urlPathReservedCharset) :
    '+' ∉ escape ∧ '[' ∉ escape := by
  have hentries : ∀ entry ∈ urlPathReservedCharset, '+' ∉ entry.2 ∧ '[' ∉ entry.2 := by decide
  exact hentries _ hescape

theorem encodeUri_eq (text : Text) : encodeUri text = text.flatMap encodeChar := by
  have hall : ∀ entry ∈ urlPathReservedCharset,
      entry.2.all fun char => (urlPathReservedCharset.lookup char).isNone := by decide
  have hfresh : ∀ entry ∈ urlPathReservedCharset, ∀ char ∈ entry.2,
      urlPathReservedCharset.lookup char = none := by
    intro entry hentry char hchar
    exact Option.isNone_iff_eq_none.mp (List.all_eq_true.mp (hall entry hentry) char hchar)
  rw [encodeUri, foldl_replace hfresh, namedUrlResInnerDilimiter, replace_singleton,
    List.flatMap_assoc]
  congr 1
  funext char
  rw [encodeChar]
  split
  · next heq =>
    rw [heq]
    rfl
  · next hne =>
    cases hlookup : urlPathReservedCharset.lookup char with
    | none => simp [hne]
    | some escape =>
      apply flatMap_eq_self
      intro other hother
      have hother : other ≠ '+' := by
        rintro rfl
        exact (delimiter_not_mem (lookup_mem hlookup)).1 hother
      exact if_neg hother

theorem replace_encode (text rest : Text) :
    replace bracketed namedUrlResDilimiterEncode (text.flatMap encodeChar ++ rest) =
      escapeUri text ++ replace bracketed namedUrlResDilimiterEncode rest := by
  induction text with
  | nil => rfl
  | cons char text ih =>
    rw [escapeUri, List.flatMap_cons, List.flatMap_cons, List.append_assoc, List.append_assoc,
      encodeChar, escapeChar]
    split
    · rw [replace_append (by decide), ih]
      rfl
    · have hmem : '[' ∉ (urlPathReservedCharset.lookup char).getD [char] := by
        cases hlookup : urlPathReservedCharset.lookup char with
        | none =>
          rw [Option.getD_none, List.mem_singleton]
          rintro rfl
          simp [urlPathReservedCharset] at hlookup
        | some escape => exact (delimiter_not_mem (lookup_mem hlookup)).2
      rw [bracketed, List.singleton_append] at ih ⊢
      rw [List.cons_append, replace_append_of_not_mem hmem]
      exact congrArg _ ih

def isEscapeOf (char : Char) : Text → Bool
  | ['%', high, low] => isAscii char && escapedByte high low == some char.toNat
  | _ => false

theorem escapes_escapeChar : Escapes escapeChar := by
  have hescape : ∀ char escape, isEscapeOf char escape = true →
      isAscii char = true ∧ ∃ high low, escape = ['%', high, low] ∧
        escapedByte high low = some char.toNat := by
    intro char escape hescape
    rw [isEscapeOf.eq_def] at hescape
    split at hescape
    · next high low =>
      rw [Bool.and_eq_true, beq_iff_eq] at hescape
      exact ⟨hescape.1, high, low, rfl, hescape.2⟩
    · contradiction
  have hentries : ∀ entry ∈ urlPathReservedCharset, isEscapeOf entry.1 entry.2 = true := by decide
  intro char
  rw [escapeChar]
  split
  · next hplus =>
    rw [hplus]
    exact .inr (hescape '+' _ (by decide))
  · cases hlookup : urlPathReservedCharset.lookup char with
    | none => exact .inl rfl
    | some escape => exact .inr (hescape char escape (hentries _ (lookup_mem hlookup)))

theorem plus_not_mem_escapeUri (text : Text) : '+' ∉ escapeUri text := by
  intro hmem
  obtain ⟨char, -, hchar⟩ := List.mem_flatMap.mp hmem
  rw [escapeChar] at hchar
  split at hchar
  · exact absurd hchar (by decide)
  · next hne =>
    cases hlookup : urlPathReservedCharset.lookup char with
    | none =>
      rw [hlookup, Option.getD_none, List.mem_singleton] at hchar
      exact hne hchar.symm
    | some escape =>
      rw [hlookup] at hchar
      exact (delimiter_not_mem (lookup_mem hlookup)).1 hchar

theorem escapeUri_ne_nil (hne : text ≠ []) : escapeUri text ≠ [] := by
  obtain ⟨char, text, rfl⟩ := List.exists_cons_of_ne_nil hne
  rw [escapeUri, List.flatMap_cons]
  obtain hsame | ⟨-, high, low, hescape, -⟩ := escapes_escapeChar char
  · rw [hsame]
    exact List.cons_ne_nil _ _
  · rw [hescape]
    exact List.cons_ne_nil _ _

theorem unquote_escapeUri (hplain : Plain text) : unquote (escapeUri text) = text :=
  unquote_flatMap escapes_escapeChar hplain

/-! ## The components -/

def Spelled (values : List Text) : Prop := ∀ value ∈ values, value ≠ [] ∧ Plain value

theorem solid_joinFields (hvalues : Spelled values) :
    Solid namedUrlResDilimiter (joinFields escapeUri values) := by
  apply solid_intercalate
  intro piece hpiece
  obtain ⟨value, hvalue, rfl⟩ := List.mem_map.mp hpiece
  exact ⟨escapeUri_ne_nil (hvalues value hvalue).1, plus_not_mem_escapeUri value⟩

theorem split_joinFields (hne : values ≠ []) :
    split namedUrlResInnerDilimiter (joinFields escapeUri values) = values.map escapeUri := by
  have hpieces : values.map escapeUri ≠ [] := fun hnil => hne (List.map_eq_nil_iff.mp hnil)
  apply split_intercalate (List.cons_ne_nil _ _) hpieces
  intro piece hpiece
  obtain ⟨value, -, rfl⟩ := List.mem_map.mp hpiece
  exact solid_of_not_mem (plus_not_mem_escapeUri value)

theorem joinFields_ne_nil (hne : values ≠ []) (hvalues : Spelled values) :
    joinFields escapeUri values ≠ [] := by
  intro hnil
  have hsplit := split_joinFields hne
  obtain ⟨value, values, rfl⟩ := List.exists_cons_of_ne_nil hne
  rw [hnil, List.map_cons] at hsplit
  have hhead : [] = escapeUri value := (List.cons.inj hsplit).1
  exact escapeUri_ne_nil (hvalues value List.mem_cons_self).1 hhead.symm

theorem namedUrlNames_eq {lists : List (List Text)} (hne : lists ≠ [])
    (hlists : ∀ values ∈ lists, Spelled values) :
    namedUrlNames (namedUrlResDilimiter.intercalate (lists.map (joinFields encodeUri))) =
      lists.map (joinFields escapeUri) := by
  have hfield : ∀ text rest,
      replace bracketed namedUrlResDilimiterEncode (encodeUri text ++ rest) =
        escapeUri text ++ replace bracketed namedUrlResDilimiterEncode rest := by
    intro text rest
    rw [encodeUri_eq, replace_encode]
  have hcomponent : ∀ values rest,
      replace bracketed namedUrlResDilimiterEncode (joinFields encodeUri values ++ rest) =
        joinFields escapeUri values ++ replace bracketed namedUrlResDilimiterEncode rest :=
    replace_intercalate (by decide) hfield
  have hreplaced : replace bracketed namedUrlResDilimiterEncode
      (namedUrlResDilimiter.intercalate (lists.map (joinFields encodeUri)) ++ []) =
        namedUrlResDilimiter.intercalate (lists.map (joinFields escapeUri)) ++ [] :=
    replace_intercalate (by decide) hcomponent lists []
  rw [List.append_nil, List.append_nil] at hreplaced
  have hpieces : lists.map (joinFields escapeUri) ≠ [] :=
    fun hnil => hne (List.map_eq_nil_iff.mp hnil)
  rw [namedUrlNames, hreplaced]
  apply split_intercalate (List.cons_ne_nil _ _) hpieces
  intro piece hpiece
  obtain ⟨values, hmem, rfl⟩ := List.mem_map.mp hpiece
  exact solid_joinFields (hlists values hmem)

/-! ## The keywords -/

section Keywords

variable {Node Obj : Type*} (graph : NamedUrlGraph Node) (objects : Objects Obj)

def ownFields (prefixes : List Text) (node : Node) (obj : Obj) : List (Text × Text) :=
  (graph.fields node).map fun field =>
    (kwargName prefixes field, objects.field (some obj) field)

def namedFields (prefixes : List Text) (node : Node) (obj : Obj) : List (Text × Text) :=
  ownFields graph objects prefixes node obj ++
    (graph.adjList node).attach.flatMap fun link =>
      match objects.related obj link.1.fkName with
      | some nextObj => namedFields (prefixes ++ [link.1.fkName]) link.1.nextNode nextObj
      | none => []
termination_by graph.order node
decreasing_by exact graph.acyclic node link.1 link.2

def linkFields (prefixes : List Text) (obj : Obj) (link : Link Node) : List (Text × Text) :=
  match objects.related obj link.fkName with
  | some nextObj =>
      namedFields graph objects (prefixes ++ [link.fkName]) link.nextNode nextObj
  | none => []

theorem namedFields_eq (prefixes : List Text) (node : Node) (obj : Obj) :
    namedFields graph objects prefixes node obj =
      ownFields graph objects prefixes node obj ++
        (graph.adjList node).flatMap (linkFields graph objects prefixes obj) := by
  rw [namedFields]
  congr 1
  calc (graph.adjList node).attach.flatMap _ =
      (graph.adjList node).attach.unattach.flatMap (linkFields graph objects prefixes obj) :=
        List.flatMap_subtype fun _ _ => rfl
    _ = (graph.adjList node).flatMap (linkFields graph objects prefixes obj) := by
        rw [List.unattach_attach]

def Kwargs.setAll (kwargs : Kwargs) (entries : List (Text × Text)) : Kwargs :=
  entries.foldl (fun kwargs entry => kwargs.setItem entry.1 entry.2) kwargs

variable {graph objects} {prefixes : List Text} {node : Node} {obj : Obj} {kwargs : Kwargs}

theorem setAll_append (first second : List (Text × Text)) :
    kwargs.setAll (first ++ second) = (kwargs.setAll first).setAll second := List.foldl_append

theorem setFields_escaped {value : Text → Text} (fields : List Text)
    (hplain : ∀ field ∈ fields, Plain (value field)) :
    kwargs.setFields prefixes fields ((fields.map value).map escapeUri) =
      kwargs.setAll (fields.map fun field => (kwargName prefixes field, value field)) := by
  induction fields generalizing kwargs with
  | nil => rfl
  | cons field fields ih =>
    have hvalue := unquote_escapeUri (hplain field List.mem_cons_self)
    have hrest : ∀ kwargs : Kwargs, kwargs.setFields prefixes fields _ = _ := fun kwargs =>
      ih fun other hother => hplain other (List.mem_cons_of_mem _ hother)
    simp only [Kwargs.setFields, Kwargs.setAll, List.map_cons, List.zip_cons_cons,
      List.foldl_cons, hvalue] at hrest ⊢
    exact hrest _

def PopulateState.after (graph : NamedUrlGraph Node) (objects : Objects Obj)
    (acc : PopulateState) (node : Node) (obj : Obj) : PopulateState where
  kwargs := acc.kwargs.setAll (namedFields graph objects acc.prefixes node obj)
  prefixes := acc.prefixes.dropLast
  idx := acc.idx + (valueLists graph objects node obj).length

def Next (names : List Text) (idx : ℕ) (lists : List (List Text)) : Prop :=
  lists.map (joinFields escapeUri) <+: names.drop idx

theorem Next.head {names : List Text} {idx : ℕ} {values : List Text} {lists : List (List Text)}
    (hnext : Next names idx (values :: lists)) :
    names[idx]? = some (joinFields escapeUri values) := by
  obtain ⟨rest, hrest⟩ := hnext
  have hhead : (names.drop idx)[0]? = some (joinFields escapeUri values) := by
    rw [← hrest]
    rfl
  rwa [List.getElem?_drop, Nat.add_zero] at hhead

theorem Next.tail {names : List Text} {idx : ℕ} {lists others : List (List Text)}
    (hnext : Next names idx (lists ++ others)) : Next names (idx + lists.length) others := by
  obtain ⟨rest, hrest⟩ := hnext
  refine ⟨rest, ?_⟩
  rw [← List.drop_drop, ← hrest, List.map_append, List.append_assoc, List.drop_left']
  rw [List.length_map]

theorem Next.left {names : List Text} {idx : ℕ} {lists others : List (List Text)}
    (hnext : Next names idx (lists ++ others)) : Next names idx lists := by
  rw [Next, List.map_append] at hnext
  exact (List.prefix_append _ _).trans hnext

def ReadsBack (graph : NamedUrlGraph Node) (objects : Objects Obj) (names : List Text)
    (node : Node) : Prop :=
  ∀ (obj : Obj) (acc : PopulateState),
    (∀ values ∈ valueLists graph objects node obj, Spelled values) →
      Next names acc.idx (valueLists graph objects node obj) →
        walk graph.walks (graph.populateHooks names) node acc =
          .ok (acc.after graph objects node obj)

theorem walkLink_populate {names : List Text} {link : Link Node} {acc : PopulateState}
    (hchild : ReadsBack graph objects names link.nextNode)
    (hspelled : ∀ values ∈ linkValues graph objects obj link, Spelled values)
    (hnext : Next names acc.idx (linkValues graph objects obj link)) :
    walkLink graph.walks (graph.populateHooks names) node acc link =
      .ok { acc with
        kwargs := acc.kwargs.setAll (linkFields graph objects acc.prefixes obj link)
        idx := acc.idx + (linkValues graph objects obj link).length } := by
  have hwalk : walkLink graph.walks (graph.populateHooks names) node acc link =
      walk graph.walks (graph.populateHooks names) link.nextNode
        { acc with prefixes := acc.prefixes ++ [link.fkName] } := rfl
  rw [linkValues.eq_def] at hspelled hnext ⊢
  rw [hwalk, linkFields.eq_def]
  cases hrelated : objects.related obj link.fkName with
  | none =>
    simp only [hrelated] at hnext ⊢
    have hvisit : (graph.populateHooks names).visit link.nextNode
        { acc with prefixes := acc.prefixes ++ [link.fkName] } = _ := visit_of_empty hnext.head
    rw [walk_eq, hvisit]
    simp only [List.dropLast_concat]
    rfl
  | some nextObj =>
    simp only [hrelated] at hspelled hnext ⊢
    rw [hchild nextObj { acc with prefixes := acc.prefixes ++ [link.fkName] } hspelled hnext,
      PopulateState.after]
    simp only [List.dropLast_concat]

theorem walkLinks_populate {names : List Text} {links : List (Link Node)} {acc : PopulateState}
    (hchild : ∀ link ∈ links, ReadsBack graph objects names link.nextNode)
    (hspelled : ∀ values ∈ links.flatMap (linkValues graph objects obj), Spelled values)
    (hnext : Next names acc.idx (links.flatMap (linkValues graph objects obj))) :
    walkLinks graph.walks (graph.populateHooks names) node links acc =
      .ok { acc with
        kwargs := acc.kwargs.setAll (links.flatMap (linkFields graph objects acc.prefixes obj))
        idx := acc.idx + (links.flatMap (linkValues graph objects obj)).length } := by
  induction links generalizing acc with
  | nil => rfl
  | cons link links ih =>
    rw [List.flatMap_cons] at hspelled hnext
    have hlink : walkLink graph.walks (graph.populateHooks names) node acc link = _ :=
      walkLink_populate (hchild link List.mem_cons_self)
        (fun values hvalues => hspelled values (List.mem_append_left _ hvalues)) hnext.left
    have hrest : walkLinks graph.walks (graph.populateHooks names) node links
        { acc with
          kwargs := acc.kwargs.setAll (linkFields graph objects acc.prefixes obj link)
          idx := acc.idx + (linkValues graph objects obj link).length } = _ :=
      ih (fun other hother => hchild other (List.mem_cons_of_mem _ hother))
        (fun values hvalues => hspelled values (List.mem_append_right _ hvalues)) hnext.tail
    rw [walkLinks] at hrest ⊢
    rw [List.foldlM_cons, hlink, List.flatMap_cons, List.flatMap_cons, setAll_append,
      List.length_append, ← Nat.add_assoc]
    exact hrest

variable (hfields : ∀ node, graph.fields node = [] → graph.adjList node = [])
include hfields

theorem readsBack (names : List Text) (node : Node) : ReadsBack graph objects names node := by
  intro obj acc hspelled hnext
  have hchild : ∀ link ∈ graph.adjList node, ReadsBack graph objects names link.nextNode :=
    fun link hlink => readsBack names link.nextNode
  rw [valueLists_eq] at hspelled hnext
  have hown := hspelled _ List.mem_cons_self
  have hname := hnext.head
  rw [PopulateState.after, valueLists_eq, namedFields_eq]
  by_cases hempty : graph.fields node = []
  · have hnone : fieldTexts graph objects node obj = [] := by
      rw [fieldTexts, hempty, List.map_nil]
    rw [hnone] at hname
    rw [walk_eq, visit_of_empty hname, hfields node hempty, ownFields, hempty]
    rfl
  · have htexts : fieldTexts graph objects node obj ≠ [] :=
      fun hnil => hempty (List.map_eq_nil_iff.mp hnil)
    have hlength : (split namedUrlResInnerDilimiter
        (joinFields escapeUri (fieldTexts graph objects node obj))).length =
          (graph.fields node).length := by
      rw [split_joinFields htexts, List.length_map, fieldTexts, List.length_map]
    have hset : acc.kwargs.setFields acc.prefixes (graph.fields node)
        (split namedUrlResInnerDilimiter
          (joinFields escapeUri (fieldTexts graph objects node obj))) =
        acc.kwargs.setAll (ownFields graph objects acc.prefixes node obj) := by
      rw [split_joinFields htexts]
      exact setFields_escaped _ fun field hfield =>
        (hown _ (List.mem_map.mpr ⟨field, hfield, rfl⟩)).2
    have hrest : Next names (acc.idx + 1)
        ((graph.adjList node).flatMap (linkValues graph objects obj)) := by
      rw [← List.singleton_append] at hnext
      exact hnext.tail
    have hlinks : walkLinks graph.walks (graph.populateHooks names) node (graph.adjList node)
        { acc with
          kwargs := acc.kwargs.setAll (ownFields graph objects acc.prefixes node obj)
          idx := acc.idx + 1 } = _ :=
      walkLinks_populate hchild
        (fun values hvalues => hspelled values (List.mem_cons_of_mem _ hvalues)) hrest
    rw [walk_eq, visit_of_name hname (joinFields_ne_nil htexts hown),
      if_neg (not_not_intro hlength), hset]
    simp only [NamedUrlGraph.walks] at hlinks ⊢
    rw [hlinks, List.length_cons, setAll_append, Nat.add_right_comm acc.idx 1]
    rfl
termination_by graph.order node
decreasing_by exact graph.acyclic node link hlink

end Keywords

/-! ## The whole URL -/

section RoundTrip

variable {Node Obj : Type*} [DecidableEq Node] {graph : NamedUrlGraph Node}
  {objects : Objects Obj} {node : Node} {obj : Obj}

omit [DecidableEq Node] in
theorem reading_generated (hfields : ∀ node, graph.fields node = [] → graph.adjList node = [])
    (hspelled : ∀ values ∈ valueLists graph objects node obj, Spelled values) (kwargs : Kwargs) :
    reading graph node kwargs
        (namedUrlResDilimiter.intercalate (components graph objects node obj)) =
      .ok ⟨kwargs.setAll (namedFields graph objects [] node obj), [],
        (namedUrlNames
          (namedUrlResDilimiter.intercalate (components graph objects node obj))).length⟩ := by
  have hne : valueLists graph objects node obj ≠ [] := by
    rw [valueLists_eq]
    exact List.cons_ne_nil _ _
  have hnames := namedUrlNames_eq hne hspelled
  have hnext : Next ((valueLists graph objects node obj).map (joinFields escapeUri)) 0
      (valueLists graph objects node obj) := List.prefix_rfl
  have hread := readsBack hfields _ node obj ⟨kwargs, [], 0⟩ hspelled hnext
  rw [reading, components, hnames, hread, PopulateState.after, List.length_map, Nat.zero_add]
  rfl

theorem returns_generate (node : Node) (obj : Obj) :
    Returns graph objects .fresh (.generateNamedUrl node obj)
      (.text (namedUrlResDilimiter.intercalate (components graph objects node obj))) := by
  obtain ⟨fuel, hgenerate⟩ : ∃ fuel, graph.generateNamedUrl objects fuel node obj .fresh = _ :=
    generate_fresh node obj
  exact ⟨fuel, _, by rw [Call.perform, hgenerate]; rfl⟩

/-- A generated URL that is not a number, or that is read with numbers, gives back the
fields of the object; by default a positive number is left to be the id of a row. -/
theorem named_url_round_trip (hfields : ∀ node, graph.fields node = [] → graph.adjList node = [])
    (hspelled : ∀ values ∈ valueLists graph objects node obj, Spelled values) :
    ∃ namedUrl, Returns graph objects .fresh (.generateNamedUrl node obj) (.text namedUrl) ∧
      ∀ kwargs ignoreDigits,
        (ignoreDigits = false ∨ isPositiveNumber namedUrl = some false →
          Returns graph objects .fresh
            (.populateNamedUrlQueryKwargs node kwargs namedUrl ignoreDigits)
            (.populated (.ok ⟨true, kwargs.setAll (namedFields graph objects [] node obj)⟩))) ∧
        (ignoreDigits = true ∧ isPositiveNumber namedUrl = some true →
          Returns graph objects .fresh
            (.populateNamedUrlQueryKwargs node kwargs namedUrl ignoreDigits)
            (.populated (.ok ⟨false, kwargs⟩))) := by
  refine ⟨_, returns_generate node obj, fun kwargs ignoreDigits => ⟨fun hread => ?_, ?_⟩⟩
  · have hnot : ¬ (ignoreDigits = true ∧ isPositiveNumber
        (namedUrlResDilimiter.intercalate (components graph objects node obj)) ≠ some false) := by
      rintro ⟨hdigits, hnumber⟩
      obtain hkept | hplain := hread
      · rw [hdigits] at hkept
        contradiction
      · exact hnumber hplain
    obtain ⟨fuel, hpopulate⟩ : ∃ fuel, graph.populateNamedUrlQueryKwargs fuel node kwargs _
        ignoreDigits (.fresh : GraphState Node Obj) = _ :=
      populate_consumed hnot (reading_generated hfields hspelled kwargs)
    rw [decide_eq_true rfl] at hpopulate
    exact ⟨fuel, _, by rw [Call.perform, hpopulate]; rfl⟩
  · rintro ⟨rfl, hnumber⟩
    refine ⟨0, .fresh, ?_⟩
    rw [Call.perform, NamedUrlGraph.populateNamedUrlQueryKwargs, if_pos rfl, hnumber]
    rfl

end RoundTrip

def inventoryObjects : Objects Bool where
  attr inventory _ := some (if inventory then ['a', '+', 'b', '/', 'c'] else ['o'])
  related inventory _ := if inventory then some false else none

theorem named_url_round_trip_inventory :
    ∃ namedUrl,
      Returns inventoryGraph inventoryObjects .fresh (.generateNamedUrl true true)
        (.text namedUrl) ∧
      Returns inventoryGraph inventoryObjects .fresh
        (.populateNamedUrlQueryKwargs true [] namedUrl false)
        (.populated (.ok ⟨true,
          Kwargs.setAll [] (namedFields inventoryGraph inventoryObjects [] true true)⟩)) := by
  have hlists : valueLists inventoryGraph inventoryObjects true true =
      [[['a', '+', 'b', '/', 'c']], [['o']]] := by
    have horganization : valueLists inventoryGraph inventoryObjects false false = [[['o']]] :=
      valueLists_eq _ _ false false
    calc valueLists inventoryGraph inventoryObjects true true =
        [['a', '+', 'b', '/', 'c']] ::
          (valueLists inventoryGraph inventoryObjects false false ++ []) :=
            valueLists_eq _ _ true true
      _ = _ := by rw [horganization, List.append_nil]
  have hspelled : ∀ values ∈ valueLists inventoryGraph inventoryObjects true true,
      Spelled values := by
    have hplain : ∀ values ∈ [[['a', '+', 'b', '/', 'c']], [['o']]], ∀ value ∈ values,
        value ≠ [] ∧ '%' ∉ value := by decide
    rw [hlists]
    exact fun values hvalues value hvalue => (hplain values hvalues value hvalue).imp id
      plain_of_not_mem
  obtain ⟨namedUrl, hgenerate, hpopulate⟩ :=
    named_url_round_trip (by intro node hnil; contradiction) hspelled
  exact ⟨namedUrl, hgenerate, (hpopulate [] false).1 (.inl rfl)⟩

def userGraph : NamedUrlGraph Unit where
  fields _ := [['u', 's', 'e', 'r', 'n', 'a', 'm', 'e']]
  adjList _ := []
  order _ := 0
  acyclic _ _ hlink := absurd hlink List.not_mem_nil

def userFive : Objects Unit where
  attr _ _ := some ['5']
  related _ _ := none

theorem numeric_name_declined :
    ¬ ∀ (Node Obj : Type) [DecidableEq Node] (graph : NamedUrlGraph Node) (objects : Objects Obj)
      (node : Node) (obj : Obj),
      (∀ values ∈ valueLists graph objects node obj, ∀ value ∈ values, value ≠ []) →
        ∃ namedUrl, Returns graph objects .fresh (.generateNamedUrl node obj) (.text namedUrl) ∧
          Returns graph objects .fresh (.populateNamedUrlQueryKwargs node [] namedUrl true)
            (.populated (.ok ⟨true, Kwargs.setAll [] (namedFields graph objects [] node obj)⟩)) := by
  intro hclaim
  have hlists : valueLists userGraph userFive () () = [[['5']]] := valueLists_eq _ _ () ()
  have hfilled : ∀ values ∈ valueLists userGraph userFive () (), ∀ value ∈ values,
      value ≠ [] := by
    rw [hlists]
    decide
  obtain ⟨namedUrl, hgenerate, hpopulate⟩ := hclaim Unit Unit userGraph userFive () () hfilled
  have hgenerated : Returns userGraph userFive .fresh (.generateNamedUrl () ()) (.text ['5']) :=
    ⟨2, _, rfl⟩
  obtain rfl := Result.text.inj (hgenerate.unique hgenerated)
  have hdeclined : Returns userGraph userFive .fresh
      (.populateNamedUrlQueryKwargs () [] ['5'] true) (.populated (.ok ⟨false, []⟩)) :=
    ⟨0, _, rfl⟩
  have hsame := Except.ok.inj (Result.populated.inj (hpopulate.unique hdeclined))
  have hfound := (PopulateResult.mk.inj hsame).1
  contradiction

end Forail.NamedUrl
