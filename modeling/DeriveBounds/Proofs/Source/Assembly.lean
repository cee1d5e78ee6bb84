import DeriveBounds.SourceFile
import DeriveBounds.Proofs.Derivation.Accounts
import DeriveBounds.Proofs.Source.Rendering

/-!
The generated source. No line of a header or of an impl is empty, so the empty lines between them
part the source into what it was made of.
-/
namespace DeriveBounds

variable {source : String} {capabilities : List Capability} {results : List Derivation}
  {result : Derivation} {blocks : List (List String)} {block : List String}

/-- The lines of the impls of a result, an impl at a time. -/
def Derivation.renderedLines (result : Derivation) : List (List String) :=
  result.impls.map (ImplItem.renderedLines result.definition)

/-- Every impl of the result is derived for its definition, with no line break in what is written
of it. -/
def Derivation.Yields (result : Derivation) : Prop :=
  ∀ item ∈ result.impls, result.definition.Yields item

theorem isLine_fileHeader (plain : Text.Unbroken source) :
    ∀ line ∈ fileHeader source capabilities, Text.IsLine line := by
  have names : Text.Unbroken (Text.join ", " (capabilityNames capabilities)) := by
    refine Text.unbroken_join (by decide) (List.forall_mem_map.mpr fun capability _ => ?_)
    cases capability <;> decide
  have listed : Text.Unbroken (Text.joinOr "per type" ", " (capabilityNames capabilities)) := by
    unfold Text.joinOr
    split
    · decide
    · exact names
  have border : Text.IsLine headerBorder := ⟨by decide, by decide⟩
  have title : Text.IsLine "// | Generated by boundgen" := ⟨by decide, by decide⟩
  have origin : Text.IsLine ("// | Source: " ++ source) := .append ⟨by decide, by decide⟩ plain
  have derived : Text.IsLine ("// | Capabilities: " ++
      Text.joinOr "per type" ", " (capabilityNames capabilities)) :=
    .append ⟨by decide, by decide⟩ listed
  simp only [fileHeader, List.forall_mem_cons, List.not_mem_nil, false_implies, implies_true,
    and_true]
  exact ⟨border, title, origin, derived, border⟩

/-- Blocks of lines with an empty line between neighbours. -/
theorem intercalate_cons_flatMap :
    [""].intercalate (block :: blocks) = block ++ blocks.flatMap ("" :: ·) := by
  induction blocks generalizing block with
  | nil => simp
  | cons next rest ih => simp [List.intercalate_cons_cons, ih]

theorem flatten_gaps :
    (blocks.flatMap fun block => [[""], block]).flatten = blocks.flatMap ("" :: ·) := by
  induction blocks with
  | nil => rfl
  | cons block rest ih => simp [ih]

theorem ImplItem.renderedLines_ne_nil (definition : Definition) (item : ImplItem) :
    item.renderedLines definition ≠ [] := by
  unfold renderedLines
  split
  split <;> simp

/-- The source is made of its header and the impls, with an empty line between neighbours. -/
theorem assemble_eq : assemble source capabilities results =
    Text.join "\n" ([""].intercalate
      (fileHeader source capabilities :: results.flatMap Derivation.renderedLines)) ++ "\n" := by
  let parts := (fileHeader source capabilities).map (fun line => [line]) ++
    (results.flatMap Derivation.renderedLines).flatMap fun block => [[""], block]
  have joined : fileHeader source capabilities ++
      results.flatMap (fun result => result.rendered.flatMap fun item => ["", item]) =
      parts.map (Text.join "\n") := by
    simp [parts, Derivation.rendered, Derivation.renderedLines, ImplItem.render, List.map_flatMap,
      List.flatMap_assoc, List.flatMap_map, Function.comp_def]
  have filled : ∀ part ∈ parts, part ≠ [] := by
    refine List.forall_mem_append.mpr ⟨List.forall_mem_map.mpr fun line _ => by simp, ?_⟩
    intro part member
    obtain ⟨block, present, own⟩ := List.mem_flatMap.mp member
    obtain ⟨result, _, inside⟩ := List.mem_flatMap.mp present
    obtain ⟨item, _, same⟩ := List.mem_map.mp inside
    rcases List.mem_pair.mp own with gap | whole
    · simp [gap]
    · rw [whole, ← same]
      exact item.renderedLines_ne_nil result.definition
  have flat : parts.flatten = [""].intercalate
      (fileHeader source capabilities :: results.flatMap Derivation.renderedLines) := by
    rw [intercalate_cons_flatMap]
    simp [parts, flatten_gaps, ← List.flatMap_def]
  rw [assemble, joined, Text.join_map_join filled, flat]

/-- Blocks of lines, none of them empty. -/
def LineBlocks (blocks : List (List String)) : Prop :=
  ∀ block ∈ blocks, block ≠ [] ∧ ∀ line ∈ block, Text.IsLine line

theorem LineBlocks.unbroken (each : LineBlocks (block :: blocks)) :
    ∀ line ∈ [""].intercalate (block :: blocks), Text.Unbroken line := by
  obtain ⟨⟨_, own⟩, others⟩ := List.forall_mem_cons.mp each
  rw [intercalate_cons_flatMap, List.forall_mem_append]
  refine ⟨fun line member => (own line member).unbroken, fun line member => ?_⟩
  obtain ⟨next, present, inside⟩ := List.mem_flatMap.mp member
  rcases List.mem_cons.mp inside with gap | line
  · rw [gap]
    exact Text.unbroken_empty
  · exact ((others next present).2 _ line).unbroken

/-- The last line is a line of the last block. -/
theorem LineBlocks.exists_getLast? (each : LineBlocks (block :: blocks)) :
    ∃ last, ([""].intercalate (block :: blocks)).getLast? = some last ∧ Text.IsLine last := by
  induction blocks generalizing block with
  | nil =>
    obtain ⟨some, own⟩ := each block (List.mem_cons_self ..)
    refine ⟨block.getLast some, ?_, own _ (List.getLast_mem some)⟩
    rw [List.intercalate_singleton, List.getLast?_eq_some_getLast some]
  | cons next rest ih =>
    obtain ⟨last, final, isLine⟩ :=
      ih fun other member => each other (List.mem_cons_of_mem _ member)
    refine ⟨last, ?_, isLine⟩
    rw [List.intercalate_cons_cons, List.getLast?_append, final]
    rfl

theorem LineBlocks.lines (each : LineBlocks (block :: blocks)) :
    Text.lines (Text.join "\n" ([""].intercalate (block :: blocks)) ++ "\n") =
      [""].intercalate (block :: blocks) := by
  refine Text.lines_join_lineFeed each.unbroken ?_
  rw [intercalate_cons_flatMap]
  simp [(each block (List.mem_cons_self ..)).1]

theorem LineBlocks.splitOn (each : LineBlocks (block :: blocks)) :
    ([""].intercalate (block :: blocks)).splitOn "" = block :: blocks := by
  refine List.splitOn_intercalate "" ?_ (List.cons_ne_nil _ _)
  exact fun block member empty => ((each block member).2 "" empty).filled rfl

theorem lineBlocks_of_yields (plain : Text.Unbroken source)
    (yields : ∀ result ∈ results, result.Yields) :
    LineBlocks
      (fileHeader source capabilities :: results.flatMap Derivation.renderedLines) := by
  refine List.forall_mem_cons.mpr ⟨⟨by simp [fileHeader], isLine_fileHeader plain⟩, ?_⟩
  intro block member
  obtain ⟨result, present, inside⟩ := List.mem_flatMap.mp member
  obtain ⟨item, generated, same⟩ := List.mem_map.mp inside
  obtain ⟨texts, laid⟩ := (yields result present item generated).laid
  rw [← same]
  exact ⟨item.renderedLines_ne_nil result.definition, laid.isLine⟩

/-- Empty lines part the source into its header and the impls, and it ends in one line feed. -/
theorem assemble_parts (plain : Text.Unbroken source)
    (yields : ∀ result ∈ results, result.Yields) :
    ((Text.lines (assemble source capabilities results)).splitOn "").map (Text.join "\n") =
        Text.join "\n" (fileHeader source capabilities) ::
          results.flatMap Derivation.rendered ∧
      ∃ text, assemble source capabilities results = text ++ "\n" ∧
        text.toList.getLast? ≠ some '\n' := by
  have each : LineBlocks
      (fileHeader source capabilities :: results.flatMap Derivation.renderedLines) :=
    lineBlocks_of_yields plain yields
  rw [assemble_eq, each.lines, each.splitOn]
  constructor
  · simp only [List.map_cons, List.map_flatMap, Derivation.renderedLines, List.map_map]
    rfl
  · refine ⟨_, rfl, ?_⟩
    obtain ⟨last, final, isLine⟩ := each.exists_getLast?
    rw [Text.getLast?_join final isLine.filled]
    intro lineFeed
    exact absurd (isLine.unbroken '\n' (List.mem_of_getLast? lineFeed)) (by decide)

/-- What a derivation comes to is derived. -/
theorem Derivation.yields_of_derive {definition : Definition} {requested : List Capability}
    {phantoms : List String} (derived : derive definition requested phantoms = .ok result)
    (unbroken : definition.Unbroken)
    (plain : ∀ item ∈ result.impls, ∀ predicate ∈ item.predicates, Text.Unbroken predicate) :
    result.Yields := by
  simp only [derive] at derived
  split at derived
  · cases derived
  · cases derived
    exact fun item member => ⟨⟨phantoms, (mem_impls.mp member).2⟩, unbroken, plain item member⟩

/-- The text of an impl is its header, its predicates, and the lines of its body in braces, each of
them indented once; it gives all of these back, and has no empty line. So the source is parted by
its empty lines into the header and the impls. -/
theorem rendering_lossless :
    (∀ (definition : Definition) (item : ImplItem), definition.Yields item →
        ∃ texts, body definition item.capability = .ok texts ∧
          item.body = Text.join "\n" texts ∧
          Text.lines (item.render definition) =
            implLines (item.header definition) item.predicates texts ∧
          "" ∉ Text.lines (item.render definition)) ∧
      (∀ (definition other : Definition) (item second : ImplItem),
        definition.Yields item → other.Yields second →
        item.render definition = second.render other →
          item.header definition = second.header other ∧ item.predicates = second.predicates ∧
            item.body = second.body) ∧
      ∀ (source : String) (capabilities : List Capability) (results : List Derivation),
        Text.Unbroken source → (∀ result ∈ results, result.Yields) →
          ((Text.lines (assemble source capabilities results)).splitOn "").map (Text.join "\n") =
              Text.join "\n" (fileHeader source capabilities) ::
                results.flatMap Derivation.rendered ∧
            ∃ text, assemble source capabilities results = text ++ "\n" ∧
              text.toList.getLast? ≠ some '\n' := by
  refine ⟨fun definition item yields => ?_,
    fun definition other item second yields also same => yields.render_inj also same,
    fun source capabilities results plain yields => assemble_parts plain yields⟩
  obtain ⟨texts, laid⟩ := yields.laid
  refine ⟨texts, laid.written, laid.body, laid.lines, ?_⟩
  rw [laid.lines, ← laid.rendered]
  exact fun empty => (laid.isLine "" empty).filled rfl

/-- A struct with one field of its parameter's type. -/
private def boxedDefinition (skip : Bool) : Definition :=
  ⟨"Boxed", [⟨"T", .type, none, none⟩, ⟨"N", .const, none, some "usize"⟩],
    .struct [⟨.named "inner", .path false [.mk "T" []], skip, []⟩], [], []⟩

private def boxedItem : ImplItem :=
  ⟨"Boxed", .clone, [⟨"T", .clone, .inferred⟩], ["T: ::core::clone::Clone"],
    Text.join "\n" [
      "fn clone(&self) -> Self \x7b",
      "    Self \x7b",
      "        inner: ::core::clone::Clone::clone(&self.inner),",
      "    \x7d",
      "\x7d"]⟩

private def boxedLines : List String := [
  "impl<T, const N: usize> ::core::clone::Clone for Boxed<T, N>",
  "where",
  "    T: ::core::clone::Clone,",
  "\x7b",
  "    fn clone(&self) -> Self \x7b",
  "        Self \x7b",
  "            inner: ::core::clone::Clone::clone(&self.inner),",
  "        \x7d",
  "    \x7d",
  "\x7d"]

private def emptyItem : ImplItem :=
  ⟨"Boxed", .eq, [⟨"T", .eq, .inferred⟩], ["T: ::core::cmp::Eq"], ""⟩

private def boxedResult : Derivation := ⟨boxedDefinition false, [boxedItem, emptyItem], []⟩

private theorem derive_boxed :
    derive (boxedDefinition false) [.eq, .clone] defaultPhantoms = .ok boxedResult := by cbv

private theorem unbroken_boxed (skip : Bool) : (boxedDefinition skip).Unbroken := by
  constructor <;> simp +decide [boxedDefinition, Shape.fields, Shape.variants]

/-- A struct and the same with a skip mark, which makes no difference to `Clone`. -/
theorem rendering_lossless_sample :
    derive (boxedDefinition false) [.eq, .clone] defaultPhantoms = .ok boxedResult ∧
      (boxedDefinition true).implFor defaultPhantoms .clone = .ok boxedItem ∧
      Text.lines (boxedItem.render (boxedDefinition false)) = boxedLines ∧
      "" ∉ Text.lines (boxedItem.render (boxedDefinition false)) ∧
      boxedItem.header (boxedDefinition false) = boxedItem.header (boxedDefinition true) ∧
      ((Text.lines (assemble "types.xml" [] [boxedResult])).splitOn "").map (Text.join "\n") =
        [Text.join "\n" (fileHeader "types.xml" []), boxedItem.render (boxedDefinition false),
          emptyItem.render (boxedDefinition false)] := by
  have plain : ∀ item ∈ boxedResult.impls, ∀ predicate ∈ item.predicates,
      Text.Unbroken predicate := by decide
  have yields := Derivation.yields_of_derive derive_boxed (unbroken_boxed false) plain
  have boxed : (boxedDefinition false).Yields boxedItem := yields boxedItem (by simp [boxedResult])
  have derived : (boxedDefinition true).implFor defaultPhantoms .clone = .ok boxedItem := by cbv
  have skipped : (boxedDefinition true).Yields boxedItem :=
    ⟨⟨_, derived⟩, unbroken_boxed true, boxed.predicates⟩
  obtain ⟨lines, injective, parts⟩ := rendering_lossless
  obtain ⟨texts, written, _, read, filled⟩ := lines (boxedDefinition false) boxedItem boxed
  have shown :
      implLines (boxedItem.header (boxedDefinition false)) boxedItem.predicates texts =
        boxedLines := by
    cases written
    cbv
  obtain ⟨headers, _⟩ := injective _ _ _ _ boxed skipped rfl
  obtain ⟨parted, _⟩ := parts "types.xml" [] [boxedResult] (by decide)
    (List.forall_mem_singleton.mpr yields)
  exact ⟨derive_boxed, derived, read.trans shown, filled, headers, parted⟩

end DeriveBounds
