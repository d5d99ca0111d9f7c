import Chat2DB.Base.Acyclic
import Chat2DB.Schema.ViewNames
import Chat2DB.Schema.ViewOrder

/-! # The order of the views is a topological one

An order is found exactly when no view depends on itself by way of others, and each view
then comes after all that it depends on. What is read off a definition is what it names as
long as no other catalog, and no object or column, is spelled like the database.
-/

namespace Chat2DB.Schema

open Precedence (Acyclic Respects)

variable {snapshot : SchemaSnapshot} {order : ViewOrder} {view dependency : List Char}
  {object : List Char}

local instance lawfulTopology : LawfulBEq (List Char) := inferInstance

/-- The dependencies that are read off the definitions. -/
def DependsOn (snapshot : SchemaSnapshot) (view dependency : List Char) : Prop :=
  ∃ definition, (view, definition) ∈ snapshot.views ∧
    dependency ∈ viewDependencies snapshot definition

/-- A view is named by a dotted name of its database and itself, both compared as
`lower_case_table_names` prescribes. -/
def NamedBy (snapshot : SchemaSnapshot) (definition dependency : List Char) : Prop :=
  dependency ∈ snapshot.views.map Prod.fst ∧
    ∃ dotted ∈ dottedNames none definition,
      ∃ object ∈ ownObjects snapshot.lowerCaseTableNames snapshot.databaseName dotted,
        comparedName snapshot.lowerCaseTableNames dependency =
          comparedName snapshot.lowerCaseTableNames object

/-- The view names the other one in its definition. -/
def NamesView (snapshot : SchemaSnapshot) (view dependency : List Char) : Prop :=
  ∃ definition, (view, definition) ∈ snapshot.views ∧ NamedBy snapshot definition dependency

/-! ## Checked counters -/

namespace ViewOrder

/-- As `pop`, but no counter that stands at zero is taken one from. -/
def popChecked (snapshot : SchemaSnapshot) (order : ViewOrder) (view : List Char) :
    Option ViewOrder :=
  let children := (snapshot.views.filter fun entry =>
    view ∈ viewDependencies snapshot entry.2).map Prod.fst
  if ∃ entry ∈ order.counts, entry.1 ∈ children ∧ entry.2 = 0 then none
  else some (order.pop snapshot view)

def runChecked (snapshot : SchemaSnapshot) : Nat → ViewOrder → Option ViewOrder
  | 0, order => some order
  | fuel + 1, order =>
    match (snapshot.views.map Prod.fst).find? fun view => view ∈ order.ready with
    | none => some order
    | some view => (order.popChecked snapshot view).bind (runChecked snapshot fuel)

/-- Before the first view is taken. -/
def start (snapshot : SchemaSnapshot) : ViewOrder :=
  let counts := snapshot.views.map fun entry =>
    (entry.1, (viewDependencies snapshot entry.2).length)
  { counts
    ready := (counts.filter fun entry => entry.2 = 0).map Prod.fst
    ordered := [] }

theorem Sound.popChecked_eq (hsound : order.Sound snapshot) (hready : view ∈ order.ready) :
    order.popChecked snapshot view = some (order.pop snapshot view) := by
  unfold popChecked
  apply if_neg
  rintro ⟨entry, hentry, hchild, hzero⟩
  rw [hsound.counts] at hentry
  obtain ⟨⟨name, definition⟩, hview, rfl⟩ := List.mem_map.mp hentry
  have hawaited := mem_awaitedViews.mpr
    ⟨(mem_children hview).mp hchild, hsound.not_ordered hready⟩
  rw [List.eq_nil_of_length_eq_zero hzero] at hawaited
  cases hawaited

theorem Sound.runChecked_eq (hsound : order.Sound snapshot) (fuel : Nat) :
    runChecked snapshot fuel order = some (ViewOrder.run snapshot fuel order) := by
  induction fuel generalizing order with
  | zero => rfl
  | succ fuel ih =>
    rw [runChecked, ViewOrder.run]
    cases hfind : (snapshot.views.map Prod.fst).find? fun view => view ∈ order.ready with
    | none => rfl
    | some view =>
      have hfound := List.find?_some hfind
      have hready := of_decide_eq_true hfound
      simp only [hsound.popChecked_eq hready, Option.bind_some]
      exact ih (hsound.pop hready)

/-! ## Completeness -/

/-- The views that wait for none have come or are ready, and each came after what it depends on. -/
structure Complete (snapshot : SchemaSnapshot) (order : ViewOrder) : Prop where
  noticed : ∀ view definition, (view, definition) ∈ snapshot.views →
    awaitedViews snapshot order.ordered definition = [] → view ∈ order.ordered ++ order.ready
  respects : Respects (DependsOn snapshot) order.ordered

theorem complete_start : (start snapshot).Complete snapshot := by
  refine ⟨?_, Precedence.respects_nil⟩
  intro view definition hview hnone
  have hall : awaitedViews snapshot [] definition = viewDependencies snapshot definition := by
    simp [awaitedViews]
  have hnone : awaitedViews snapshot [] definition = [] := hnone
  rw [hall] at hnone
  apply List.mem_append_right
  refine List.mem_map.mpr ⟨(view, 0), List.mem_filter.mpr ⟨?_, by simp⟩, rfl⟩
  exact List.mem_map.mpr ⟨(view, definition), hview, by simp [hnone]⟩

/-- Taking out a view that is ready leaves the order complete. -/
theorem Complete.pop (hcomplete : order.Complete snapshot) (hsound : order.Sound snapshot)
    (hready : view ∈ order.ready) : (order.pop snapshot view).Complete snapshot := by
  have hordered : (order.pop snapshot view).ordered = order.ordered ++ [view] := rfl
  refine ⟨?_, ?_⟩
  · intro name definition hname hnone
    rw [hordered] at hnone ⊢
    have hready' : (order.pop snapshot view).ready = order.ready.erase view ++ _ := rfl
    rw [hready', ← List.append_assoc]
    by_cases hbefore : name ∈ order.ordered ++ order.ready
    · -- What was ready stays so, but for the view itself, which has come.
      apply List.mem_append_left
      rcases List.mem_append.mp hbefore with hcame | hwaits
      · exact List.mem_append_left _ (List.mem_append_left _ hcame)
      · by_cases hself : name = view
        · rw [hself]
          exact List.mem_append_left _ (List.mem_append_right _ (List.mem_singleton_self view))
        · exact List.mem_append_right _ ((List.mem_erase_of_ne hself).mpr hwaits)
    · -- What waited for the view alone becomes ready with it.
      have hwaited : awaitedViews snapshot order.ordered definition ≠ [] :=
        fun hfree => hbefore (hcomplete.noticed name definition hname hfree)
      have hdepends : view ∈ viewDependencies snapshot definition := by
        by_contra hindependent
        apply hwaited
        rw [awaitedViews_append, List.erase_of_not_mem] at hnone
        · exact hnone
        · intro hmem
          exact hindependent (mem_awaitedViews.mp hmem).1
      apply List.mem_append_right
      refine List.mem_map.mpr ⟨(name, 0), List.mem_filter.mpr ⟨?_, ?_⟩, rfl⟩
      · change (name, 0) ∈ (order.pop snapshot view).counts
        rw [hsound.pop_counts hready]
        exact List.mem_map.mpr ⟨(name, definition), hname, by rw [hnone]; rfl⟩
      · simp only [decide_true, Bool.and_true, decide_eq_true_eq]
        exact (mem_children hname).mpr hdepends
  · rw [hordered]
    apply hcomplete.respects.append_singleton
    rintro dependency ⟨definition, hview, hdepends⟩
    obtain ⟨other, hother, hnone⟩ := hsound.unblocked view (List.mem_append_right _ hready)
    obtain rfl := view_unique hview hother
    by_contra hmissing
    have hawaited := mem_awaitedViews.mpr ⟨hdepends, hmissing⟩
    rw [hnone] at hawaited
    cases hawaited

/-- The loop ends when nothing is ready, for which there are turns enough. -/
theorem run_ready (hsound : order.Sound snapshot) {fuel : Nat}
    (hfuel : snapshot.views.length ≤ fuel + order.ordered.length) :
    (ViewOrder.run snapshot fuel order).ready = [] := by
  have hnames : ∀ order : ViewOrder, order.Sound snapshot →
      (order.ordered ++ order.ready) ⊆ snapshot.views.map Prod.fst := by
    intro order hsound view hview
    obtain ⟨definition, hmem, -⟩ := hsound.unblocked view hview
    exact List.mem_map_of_mem hmem
  induction fuel generalizing order with
  | zero =>
    have hlength := (hsound.nodup.subperm (hnames order hsound)).length_le
    rw [List.length_append, List.length_map] at hlength
    rw [ViewOrder.run]
    apply List.eq_nil_of_length_eq_zero
    omega
  | succ fuel ih =>
    rw [ViewOrder.run]
    split
    · rename_i hfind
      rw [List.eq_nil_iff_forall_not_mem]
      intro view hready
      have hnone := List.find?_eq_none.mp hfind view
        (hnames order hsound (List.mem_append_right _ hready))
      exact hnone (decide_eq_true hready)
    · rename_i view hfind
      have hfound := List.find?_some hfind
      have hready := of_decide_eq_true hfound
      apply ih (hsound.pop hready)
      have hordered : (order.pop snapshot view).ordered = order.ordered ++ [view] := rfl
      rw [hordered, List.length_append, List.length_singleton]
      omega

theorem Complete.run (hcomplete : order.Complete snapshot) (hsound : order.Sound snapshot)
    (fuel : Nat) : (ViewOrder.run snapshot fuel order).Complete snapshot := by
  induction fuel generalizing order with
  | zero => exact hcomplete
  | succ fuel ih =>
    rw [ViewOrder.run]
    split
    · exact hcomplete
    · rename_i view hfind
      have hfound := List.find?_some hfind
      have hready := of_decide_eq_true hfound
      exact ih (hcomplete.pop hsound hready) (hsound.pop hready)

end ViewOrder

theorem DependsOn.mem (hdepends : DependsOn snapshot view dependency) :
    view ∈ snapshot.views.map Prod.fst ∧ dependency ∈ snapshot.views.map Prod.fst := by
  obtain ⟨definition, hview, hdependency⟩ := hdepends
  refine ⟨List.mem_map_of_mem hview, ?_⟩
  rw [viewDependencies, List.mem_dedup, List.mem_filterMap] at hdependency
  obtain ⟨object, -, hfind⟩ := hdependency
  exact List.mem_of_find?_eq_some hfind

theorem ordered_of_acyclic (hacyclic : Acyclic (DependsOn snapshot))
    (hcomplete : order.Complete snapshot) (hready : order.ready = []) :
    ∀ view ∈ snapshot.views.map Prod.fst, view ∈ order.ordered := by
  intro view hview
  by_contra hmissing
  let left := (snapshot.views.map Prod.fst).toFinset.filter fun name => name ∉ order.ordered
  have hleft : left.Nonempty := ⟨view, by simp [left, hmissing]; simpa using hview⟩
  obtain ⟨sink, hsink, hnone⟩ := Precedence.exists_sink hacyclic hleft
  rw [Finset.mem_filter, List.mem_toFinset] at hsink
  obtain ⟨⟨name, definition⟩, hentry, rfl⟩ := List.mem_map.mp hsink.1
  have hfree : awaitedViews snapshot order.ordered definition = [] := by
    rw [List.eq_nil_iff_forall_not_mem]
    intro dependency hawaited
    obtain ⟨hdepends, hunordered⟩ := mem_awaitedViews.mp hawaited
    have hpoints : DependsOn snapshot name dependency := ⟨definition, hentry, hdepends⟩
    apply hnone dependency _ hpoints
    exact Finset.mem_filter.mpr ⟨List.mem_toFinset.mpr hpoints.mem.2, hunordered⟩
  have hnoticed := hcomplete.noticed name definition hentry hfree
  rw [hready, List.append_nil] at hnoticed
  exact hsink.2 hnoticed

/-- The order of the views is found exactly when the dependencies read off the definitions have no
cycle. It has every view once and each behind all that it depends on, and no counter is taken below
zero on the way. -/
theorem topologicallyOrderViews_dependsOn (snapshot : SchemaSnapshot) :
    ((∃ ordered, topologicallyOrderViews snapshot = .ok ordered) ↔
      Acyclic (DependsOn snapshot)) ∧
    (∀ ordered, topologicallyOrderViews snapshot = .ok ordered →
      ordered.Perm (snapshot.views.map Prod.fst) ∧ Respects (DependsOn snapshot) ordered) ∧
    ViewOrder.runChecked snapshot snapshot.views.length (ViewOrder.start snapshot) =
      some (ViewOrder.run snapshot snapshot.views.length (ViewOrder.start snapshot)) := by
  have hstart : (ViewOrder.start snapshot).Sound snapshot := sound_start snapshot
  have hsound := hstart.run snapshot.views.length
  have hcomplete := ViewOrder.complete_start.run hstart snapshot.views.length
  have hready := ViewOrder.run_ready hstart (Nat.le_add_right snapshot.views.length _)
  have hnames : (ViewOrder.run snapshot snapshot.views.length
      (ViewOrder.start snapshot)).ordered ⊆ snapshot.views.map Prod.fst := by
    intro view hview
    obtain ⟨definition, hmem, -⟩ := hsound.unblocked view (List.mem_append_left _ hview)
    exact List.mem_map_of_mem hmem
  have hnodup := (List.nodup_append.mp hsound.nodup).1
  have hresult : topologicallyOrderViews snapshot =
      if (ViewOrder.run snapshot snapshot.views.length
          (ViewOrder.start snapshot)).ordered.length ≠ snapshot.views.length then
        .error .viewDependencyCycle
      else .ok (ViewOrder.run snapshot snapshot.views.length
        (ViewOrder.start snapshot)).ordered := rfl
  have haccepted : ∀ ordered, topologicallyOrderViews snapshot = .ok ordered →
      ordered.Perm (snapshot.views.map Prod.fst) ∧ Respects (DependsOn snapshot) ordered := by
    intro ordered horder
    rw [hresult] at horder
    split_ifs at horder with hlength
    obtain rfl := Except.ok.inj horder
    rw [ne_eq, not_not] at hlength
    exact ⟨(hnodup.subperm hnames).perm_of_length_le (by rw [List.length_map, hlength]),
      hcomplete.respects⟩
  refine ⟨⟨?_, ?_⟩, haccepted, hstart.runChecked_eq _⟩
  · rintro ⟨ordered, horder⟩
    obtain ⟨hperm, hrespects⟩ := haccepted ordered horder
    apply Precedence.acyclic_of_respects (hperm.nodup_iff.mpr snapshot.viewNames) hrespects
    intro view dependency hdepends
    exact hperm.mem_iff.mpr hdepends.mem.1
  · intro hacyclic
    have hall := ordered_of_acyclic hacyclic hcomplete hready
    have hperm := (List.perm_ext_iff_of_nodup hnodup snapshot.viewNames).mpr fun view =>
      ⟨fun hview => hnames hview, hall view⟩
    refine ⟨_, hresult.trans (if_neg ?_)⟩
    rw [ne_eq, not_not, hperm.length_eq, List.length_map]

/-! ## What is read off a definition -/

/-- The comparison of the loop is that of the server. -/
theorem candidate_iff {candidate : List Char} :
    (candidate = object || snapshot.lowerCaseTableNames ≠ 0 &&
      foldText candidate = foldText object) = true ↔
    comparedName snapshot.lowerCaseTableNames candidate =
      comparedName snapshot.lowerCaseTableNames object := by
  unfold comparedName
  by_cases hzero : snapshot.lowerCaseTableNames = 0
  · simp [hzero]
  · simp only [hzero, ne_eq, not_false_eq_true, decide_true, Bool.true_and, Bool.or_eq_true,
      decide_eq_true_eq, if_false]
    exact ⟨fun hsame => hsame.elim (congrArg foldText) id, .inr⟩

/-- A dependency is the first view that compares equal to an object that the scanner finds. -/
theorem mem_viewDependencies {definition : List Char} :
    dependency ∈ viewDependencies snapshot definition ↔
      ∃ dotted ∈ dottedNames none definition,
        ∃ object ∈ spelledObjects snapshot.databaseName dotted,
          (snapshot.views.map Prod.fst).find? (fun candidate => candidate = object ||
            snapshot.lowerCaseTableNames ≠ 0 && foldText candidate = foldText object) =
              some dependency := by
  rw [viewDependencies, List.mem_dedup, List.mem_filterMap, qualifiedCatalogObjects_eq]
  simp only [List.mem_flatMap]
  constructor
  · rintro ⟨object, ⟨dotted, hdotted, hobject⟩, hfind⟩
    exact ⟨dotted, hdotted, object, hobject, hfind⟩
  · rintro ⟨dotted, hdotted, object, hobject, hfind⟩
    exact ⟨object, ⟨dotted, hdotted, hobject⟩, hfind⟩

theorem found_view {found : List Char}
    (hfind : (snapshot.views.map Prod.fst).find? (fun candidate => candidate = object ||
      snapshot.lowerCaseTableNames ≠ 0 && foldText candidate = foldText object) = some found) :
    found ∈ snapshot.views.map Prod.fst ∧
      comparedName snapshot.lowerCaseTableNames found =
        comparedName snapshot.lowerCaseTableNames object := by
  have hmatches := List.find?_some hfind
  exact ⟨List.mem_of_find?_eq_some hfind, candidate_iff.mp hmatches⟩

theorem exists_found (hview : dependency ∈ snapshot.views.map Prod.fst)
    (hsame : comparedName snapshot.lowerCaseTableNames dependency =
      comparedName snapshot.lowerCaseTableNames object) :
    ∃ found, (snapshot.views.map Prod.fst).find? (fun candidate => candidate = object ||
      snapshot.lowerCaseTableNames ≠ 0 && foldText candidate = foldText object) = some found :=
  Option.isSome_iff_exists.mp (List.find?_isSome.mpr ⟨dependency, hview, candidate_iff.mpr hsame⟩)

/-- Objects that compare equal stand for the same view. -/
theorem find?_congr {other : List Char} (hsame : comparedName snapshot.lowerCaseTableNames object =
      comparedName snapshot.lowerCaseTableNames other) :
    (snapshot.views.map Prod.fst).find? (fun candidate => candidate = object ||
        snapshot.lowerCaseTableNames ≠ 0 && foldText candidate = foldText object) =
      (snapshot.views.map Prod.fst).find? fun candidate => candidate = other ||
        snapshot.lowerCaseTableNames ≠ 0 && foldText candidate = foldText other := by
  congr 1
  funext candidate
  rw [Bool.eq_iff_iff, candidate_iff, candidate_iff, hsame]

/-- The definitions tell the views apart that are read off them. -/
structure TellsViews (snapshot : SchemaSnapshot) : Prop where
  /-- An object behind a spelling of the database, wherever that stands, is no view that the
  definition does not name. -/
  catalogs : ∀ view definition, (view, definition) ∈ snapshot.views →
    ∀ dotted ∈ dottedNames none definition,
      ∀ object ∈ spelledObjects snapshot.databaseName dotted,
        ∀ dependency ∈ snapshot.views.map Prod.fst,
          comparedName snapshot.lowerCaseTableNames dependency =
              comparedName snapshot.lowerCaseTableNames object →
            NamedBy snapshot definition dependency
  /-- An object of the database names one view. -/
  views : ∀ view definition, (view, definition) ∈ snapshot.views →
    ∀ dotted ∈ dottedNames none definition,
      ∀ object ∈ ownObjects snapshot.lowerCaseTableNames snapshot.databaseName dotted,
        ∀ first ∈ snapshot.views.map Prod.fst, ∀ second ∈ snapshot.views.map Prod.fst,
          comparedName snapshot.lowerCaseTableNames first =
              comparedName snapshot.lowerCaseTableNames object →
            comparedName snapshot.lowerCaseTableNames second =
                comparedName snapshot.lowerCaseTableNames object →
              first = second

/-- The views are sorted by what they name in their definitions. -/
structure SortsViews (snapshot : SchemaSnapshot) : Prop where
  extracted : ∀ view dependency, DependsOn snapshot view dependency ↔
    NamesView snapshot view dependency
  accepted : (∃ ordered, topologicallyOrderViews snapshot = .ok ordered) ↔
    Acyclic (NamesView snapshot)
  sorted : ∀ ordered, topologicallyOrderViews snapshot = .ok ordered →
    ordered.Perm (snapshot.views.map Prod.fst) ∧ Respects (NamesView snapshot) ordered
  counted : ViewOrder.runChecked snapshot snapshot.views.length (ViewOrder.start snapshot) =
    some (ViewOrder.run snapshot snapshot.views.length (ViewOrder.start snapshot))

theorem TellsViews.extracted (htells : TellsViews snapshot) (view dependency : List Char) :
    DependsOn snapshot view dependency ↔ NamesView snapshot view dependency := by
  constructor
  · rintro ⟨definition, hview, hdepends⟩
    obtain ⟨dotted, hdotted, object, hobject, hfind⟩ := mem_viewDependencies.mp hdepends
    obtain ⟨hfound, hsame⟩ := found_view hfind
    exact ⟨definition, hview,
      htells.catalogs view definition hview dotted hdotted object hobject dependency hfound hsame⟩
  · rintro ⟨definition, hview, hmem, dotted, hdotted, object, hobject, hsame⟩
    obtain ⟨found, hfind⟩ := exists_found hmem hsame
    obtain ⟨hfound, hother⟩ := found_view hfind
    obtain rfl := htells.views view definition hview dotted hdotted object hobject found hfound
      dependency hmem hother hsame
    exact ⟨definition, hview,
      mem_viewDependencies.mpr ⟨dotted, hdotted, object, spelled_of_own hobject, hfind⟩⟩

theorem tellsViews_of_extracted (hextracted : ∀ view dependency,
    DependsOn snapshot view dependency ↔ NamesView snapshot view dependency) :
    TellsViews snapshot where
  catalogs := by
    intro view definition hview dotted hdotted object hobject dependency hmem hsame
    obtain ⟨found, hfind⟩ := exists_found hmem hsame
    obtain ⟨hfound, hother⟩ := found_view hfind
    obtain ⟨named, hnamed, -, dotted', hdotted', object', hobject', hcompared⟩ :=
      (hextracted view found).mp ⟨definition, hview,
        mem_viewDependencies.mpr ⟨dotted, hdotted, object, hobject, hfind⟩⟩
    obtain rfl := view_unique hview hnamed
    exact ⟨hmem, dotted', hdotted', object', hobject',
      (hsame.trans hother.symm).trans hcompared⟩
  views := by
    intro view definition hview dotted hdotted object hobject first hfirst second hsecond hsame
      hother
    -- both are named, so the scanner finds an object that compares equal for each
    have hfind : ∀ named ∈ snapshot.views.map Prod.fst,
        comparedName snapshot.lowerCaseTableNames named =
          comparedName snapshot.lowerCaseTableNames object →
        (snapshot.views.map Prod.fst).find? (fun candidate => candidate = object ||
          snapshot.lowerCaseTableNames ≠ 0 && foldText candidate = foldText object) =
            some named := by
      intro named hmem hcompared
      obtain ⟨other, hview', hdepends⟩ := (hextracted view named).mpr
        ⟨definition, hview, hmem, dotted, hdotted, object, hobject, hcompared⟩
      obtain ⟨-, -, spelled, -, hfound⟩ := mem_viewDependencies.mp hdepends
      rw [← hfound]
      exact find?_congr (hcompared.symm.trans (found_view hfound).2)
    exact Option.some.inj ((hfind first hfirst hsame).symm.trans (hfind second hsecond hother))

/-- The views are sorted by what they name if and only if the definitions tell that apart. -/
theorem topologicallyOrderViews_sorts_iff (snapshot : SchemaSnapshot) :
    SortsViews snapshot ↔ TellsViews snapshot := by
  constructor
  · intro hsorts
    exact tellsViews_of_extracted hsorts.extracted
  · intro htells
    have hsame : DependsOn snapshot = NamesView snapshot := by
      funext view dependency
      exact propext (htells.extracted view dependency)
    obtain ⟨haccepted, hsorted, hcounted⟩ := topologicallyOrderViews_dependsOn snapshot
    rw [hsame] at haccepted hsorted
    exact ⟨htells.extracted, haccepted, hsorted, hcounted⟩

/-! ## A database with a name in capitals -/

/-- `database`.`object` between backticks. -/
def dottedText (database object : Char) : List Char :=
  [backtick, database, backtick, '.', backtick, object, backtick]

theorem dottedNames_dottedText {database object : Char} (hdatabase : database ≠ backtick)
    (hobject : object ≠ backtick) :
    dottedNames none (dottedText database object) = [[[database], [object]]] := by
  have hname : ∀ (c : Char) (rest : List Char), c ≠ backtick → rest.head? ≠ some backtick →
      quotedRest (c :: backtick :: rest) = some ([c], rest) := by
    intro c rest hc hrest
    have hdoubled := @quotedRest_doubled [c] rest hrest
    simpa [doubled, hc] using hdoubled
  have hnext : nextPart ['.', backtick, object, backtick] = some ([object], []) := by
    have hinner := hname object [] hobject (by simp)
    exact hinner
  have hend : nextPart [] = none := rfl
  rw [dottedText, dottedNames_named (hname database _ hdatabase (by simp; decide)),
    dottedParts_some hnext, dottedParts_none hend, dottedNames]

theorem noTable_names :
    (([] : List (List Char × SnapshotTable)).map fun entry => comparedName 0 entry.1).Nodup :=
  List.nodup_nil

theorem oneView_names (definition : List Char) : ([(['v'], definition)].map Prod.fst).Nodup :=
  List.nodup_singleton _

/-- The view `v` of the database `d`, over a table of the same name in the given one. -/
def overTable (database : Char) : SchemaSnapshot where
  databaseName := ['d']
  lowerCaseTableNames := 0
  tables := []
  views := [(['v'], dottedText database 'v')]
  tableNames := noTable_names
  viewNames := oneView_names _

/-- The server tells `D` from `d`, and the view is refused as if it were over itself. -/
theorem capitalDatabase_refused :
    topologicallyOrderViews (overTable 'D') = .error .viewDependencyCycle ∧
      Acyclic (NamesView (overTable 'D')) ∧ ¬SortsViews (overTable 'D') := by
  have hnames := @dottedNames_dottedText 'D' 'v' (by decide) (by decide)
  have hviews : (overTable 'D').views = [(['v'], dottedText 'D' 'v')] := rfl
  have hdependencies : viewDependencies (overTable 'D') (dottedText 'D' 'v') = [['v']] := by
    rw [viewDependencies, qualifiedCatalogObjects_eq, hnames]
    decide
  have hrefused : topologicallyOrderViews (overTable 'D') = .error .viewDependencyCycle := by
    simp [topologicallyOrderViews, ViewOrder.run, hviews, hdependencies]
  have hnone : ∀ view dependency, ¬NamesView (overTable 'D') view dependency := by
    rintro view dependency ⟨definition, hview, -, dotted, hdotted, object, hobject, -⟩
    obtain ⟨rfl, rfl⟩ := Prod.mk.inj (List.mem_singleton.mp hview)
    rw [hnames, List.mem_singleton] at hdotted
    rw [hdotted] at hobject
    cases hobject
  have hacyclic : Acyclic (NamesView (overTable 'D')) := by
    intro view hcycle
    obtain ⟨dependency, hdepends⟩ : ∃ dependency, NamesView (overTable 'D') view dependency := by
      cases hcycle with
      | single hdepends => exact ⟨_, hdepends⟩
      | tail _ hdepends => exact absurd hdepends (hnone _ _)
    exact hnone _ _ hdepends
  refine ⟨hrefused, hacyclic, fun hsorts => ?_⟩
  obtain ⟨ordered, horder⟩ := hsorts.accepted.mpr hacyclic
  rw [hrefused] at horder
  cases horder

end Chat2DB.Schema
