import Chartbook.Proofs.Chart.Grouping
import Chartbook.Proofs.CommandLine.Run
import Chartbook.Proofs.Json.Merge
import Chartbook.Proofs.Text.Blank

/-!
# Layered settings

A settings file that is an object gives some of the settings, and the others
keep their built-in values.  The file is refused exactly if a setting in it is
not of its kind, no bar would be shown or the currency would be blank, so the
settings of every run show at least one bar.
-/

namespace Chartbook

namespace Settings

/-! ## Files -/

/-- A settings file that is read as an object; members may be repeated. -/
structure IsOverlay (content : String) (members : List (String × Json)) :
    Prop where
  parsed : Json.parse? content = some (.object members)
  shallow : (Json.object members).depth ≤ maxDepth
  sound : (Json.object members).isSound = true

theorem hasDistinctKeys_of_overlay? {content : String} {v : Json}
    (h : overlay? content = some v) : v.HasDistinctKeys := by
  obtain ⟨w, -, hw⟩ := Option.bind_eq_some_iff.mp h
  split at hw
  · cases hw
    exact w.hasDistinctKeys_lastMembers
  · contradiction

def Reads {α : Type} (read : Json → Option α) (value : Option Json)
    (a : Option α) : Prop :=
  value.map read = a.map some

structure Layer where
  axis : Option MonthAxis
  dropZeroMonths : Option Bool
  currency : Option String
  maxKpis : Option Nat
  maxCharts : Option Nat
  maxInsights : Option Nat
  topN : Option Nat
  previewRows : Option Nat
  policy : Option FailurePolicy

namespace Layer

def onto (layer : Layer) (s : Settings) : Settings where
  axis := layer.axis.getD s.axis
  dropZeroMonths := layer.dropZeroMonths.getD s.dropZeroMonths
  currency := layer.currency.getD s.currency
  maxKpis := layer.maxKpis.getD s.maxKpis
  maxCharts := layer.maxCharts.getD s.maxCharts
  maxInsights := layer.maxInsights.getD s.maxInsights
  topN := layer.topN.getD s.topN
  previewRows := layer.previewRows.getD s.previewRows
  policy := layer.policy.getD s.policy

/-- Each value under the name of a setting is of the kind of that setting. -/
structure IsReadFrom (layer : Layer) (value? : String → Option Json) :
    Prop where
  axis : Reads (choice? axisNames) (value? "default_agg_mode") layer.axis
  dropZeroMonths :
    Reads Json.bool? (value? "drop_all_zero_months") layer.dropZeroMonths
  currency : Reads Json.text? (value? "default_currency") layer.currency
  maxKpis : Reads Json.natural? (value? "max_kpis") layer.maxKpis
  maxCharts : Reads Json.natural? (value? "max_charts") layer.maxCharts
  maxInsights : Reads Json.natural? (value? "max_insights") layer.maxInsights
  topN : Reads Json.natural? (value? "default_top_n") layer.topN
  previewRows : Reads Json.natural? (value? "preview_rows") layer.previewRows
  policy : Reads (choice? policyNames) (value? "failure_policy") layer.policy

end Layer

/-- Settings that show a bar and name a currency. -/
structure IsUsable (s : Settings) : Prop where
  topN_pos : 0 < s.topN
  currency_not_blank : ¬Text.AllBlank s.currency.toList

/-! ## Reading over the built-in values -/

def builtIn : List (String × Json) := [
  ("default_agg_mode", .text "groupby"),
  ("drop_all_zero_months", .bool true),
  ("default_currency", .text "BRL"),
  ("max_kpis", .natural 6),
  ("max_charts", .natural 4),
  ("max_insights", .natural 4),
  ("default_top_n", .natural 5),
  ("preview_rows", .natural 5),
  ("failure_policy", .text "strict")]

theorem toJson_default : ({} : Settings).toJson = .object builtIn := rfl

private theorem builtIn_not_object (name : String)
    (members : List (String × Json)) :
    (builtIn.lookup name).getD .null ≠ .object members := by
  intro hobject
  cases hvalue : builtIn.lookup name with
  | none =>
      rw [hvalue] at hobject
      cases hobject
  | some v =>
      rw [hvalue, Option.getD_some] at hobject
      obtain ⟨before, after, heq, -⟩ := List.lookup_eq_some_iff.mp hvalue
      have hmem : (name, Json.object members) ∈ builtIn := by
        rw [heq, ← hobject]
        simp
      simp [builtIn, Json.natural] at hmem

private theorem lookup_mergeMembers_builtIn {patch : List (String × Json)}
    (hpatch : (patch.map Prod.fst).Nodup) (name : String) :
    (Json.mergeMembers builtIn patch).lookup name =
      (patch.lookup name).or (builtIn.lookup name) := by
  rw [Json.lookup_mergeMembers builtIn hpatch]
  cases hvalue : patch.lookup name with
  | none => rfl
  | some v =>
      dsimp only
      rw [Json.merge_of_not_object (builtIn_not_object name), Option.some_or]

theorem withDefault_or_eq_some_iff {α : Type} {read : Json → Option α}
    {default : α} {v : Json} (hdefault : read v = some default)
    {value : Option Json} {a : α} :
    Json.withDefault default read (value.or (some v)) = some a ↔
      ∃ given, Reads read value given ∧ a = given.getD default := by
  cases value with
  | none =>
      rw [Option.none_or, Json.withDefault, hdefault]
      constructor
      · rintro ⟨⟩
        exact ⟨none, rfl, rfl⟩
      · rintro ⟨given, hgiven, rfl⟩
        cases given with
        | none => rfl
        | some a => cases hgiven
  | some w =>
      rw [Option.some_or, Json.withDefault]
      constructor
      · intro hread
        exact ⟨some a, congrArg some hread, rfl⟩
      · rintro ⟨given, hgiven, rfl⟩
        cases given with
        | none => cases hgiven
        | some a => exact Option.some.inj hgiven

private theorem ofJson?_object {members : List (String × Json)}
    (h : (members.map Prod.fst).Nodup) {s : Settings} :
    ofJson? (.object members) = some s ↔
      (Json.withDefault .occurring (choice? axisNames)
          (members.lookup "default_agg_mode") = some s.axis ∧
        Json.withDefault true Json.bool?
          (members.lookup "drop_all_zero_months") = some s.dropZeroMonths ∧
        Json.withDefault "BRL" Json.text?
          (members.lookup "default_currency") = some s.currency) ∧
      (Json.withDefault 6 Json.natural?
          (members.lookup "max_kpis") = some s.maxKpis ∧
        Json.withDefault 4 Json.natural?
          (members.lookup "max_charts") = some s.maxCharts ∧
        Json.withDefault 4 Json.natural?
          (members.lookup "max_insights") = some s.maxInsights) ∧
      Json.withDefault 5 Json.natural?
          (members.lookup "default_top_n") = some s.topN ∧
        Json.withDefault 5 Json.natural?
          (members.lookup "preview_rows") = some s.previewRows ∧
        Json.withDefault .strict (choice? policyNames)
          (members.lookup "failure_policy") = some s.policy := by
  unfold ofJson?
  rw [Json.fields?_of_nodup h]
  simp only [List.map_cons, List.map_nil, Option.bind_eq_some_iff, bind,
    Option.some.injEq]
  constructor
  · rintro ⟨_, h₁, _, h₂, _, h₃, _, h₄, _, h₅, _, h₆, _, h₇, _, h₈, _, h₉, rfl⟩
    exact ⟨⟨h₁, h₂, h₃⟩, ⟨h₄, h₅, h₆⟩, h₇, h₈, h₉⟩
  · rintro ⟨⟨h₁, h₂, h₃⟩, ⟨h₄, h₅, h₆⟩, h₇, h₈, h₉⟩
    exact ⟨_, h₁, _, h₂, _, h₃, _, h₄, _, h₅, _, h₆, _, h₇, _, h₈, _, h₉, rfl⟩

section Merged

variable {patch : List (String × Json)} (hpatch : (patch.map Prod.fst).Nodup)
include hpatch

private theorem withDefault_lookup_merged {name : String} {α : Type}
    {read : Json → Option α} {default a : α}
    (hdefault : (builtIn.lookup name).bind read = some default) :
    Json.withDefault default read
        ((Json.mergeMembers builtIn patch).lookup name) = some a ↔
      ∃ given, Reads read (patch.lookup name) given ∧
        a = given.getD default := by
  obtain ⟨v, hname, hread⟩ := Option.bind_eq_some_iff.mp hdefault
  rw [lookup_mergeMembers_builtIn hpatch, hname,
    withDefault_or_eq_some_iff hread]

theorem ofJson?_merge_eq_some_iff {s : Settings} :
    ofJson? (Json.merge ({} : Settings).toJson (.object patch)) = some s ↔
      ∃ layer : Layer, layer.IsReadFrom (fun name => patch.lookup name) ∧
        s = layer.onto {} := by
  have hbuiltIn : (builtIn.map Prod.fst).Nodup := by decide
  have haxis (a : MonthAxis) := @withDefault_lookup_merged patch hpatch
    "default_agg_mode" _ (choice? axisNames) _ a rfl
  have hdropZero (a : Bool) := @withDefault_lookup_merged patch hpatch
    "drop_all_zero_months" _ Json.bool? _ a rfl
  have hcurrency (a : String) := @withDefault_lookup_merged patch hpatch
    "default_currency" _ Json.text? _ a rfl
  have hmaxKpis (a : Nat) := @withDefault_lookup_merged patch hpatch
    "max_kpis" _ Json.natural? _ a rfl
  have hmaxCharts (a : Nat) := @withDefault_lookup_merged patch hpatch
    "max_charts" _ Json.natural? _ a rfl
  have hmaxInsights (a : Nat) := @withDefault_lookup_merged patch hpatch
    "max_insights" _ Json.natural? _ a rfl
  have htopN (a : Nat) := @withDefault_lookup_merged patch hpatch
    "default_top_n" _ Json.natural? _ a rfl
  have hpreviewRows (a : Nat) := @withDefault_lookup_merged patch hpatch
    "preview_rows" _ Json.natural? _ a rfl
  have hpolicy (a : FailurePolicy) := @withDefault_lookup_merged patch hpatch
    "failure_policy" _ (choice? policyNames) _ a rfl
  rw [toJson_default, Json.merge,
    ofJson?_object (Json.nodup_mergeMembers hbuiltIn patch), haxis, hdropZero,
    hcurrency, hmaxKpis, hmaxCharts, hmaxInsights, htopN, hpreviewRows, hpolicy]
  constructor
  · rintro ⟨⟨⟨axis, haxis, h₁⟩, ⟨dropZero, hdropZero, h₂⟩,
      ⟨currency, hcurrency, h₃⟩⟩, ⟨⟨maxKpis, hmaxKpis, h₄⟩,
      ⟨maxCharts, hmaxCharts, h₅⟩, ⟨maxInsights, hmaxInsights, h₆⟩⟩,
      ⟨topN, htopN, h₇⟩, ⟨previewRows, hpreviewRows, h₈⟩,
      ⟨policy, hpolicy, h₉⟩⟩
    refine ⟨⟨axis, dropZero, currency, maxKpis, maxCharts, maxInsights, topN,
      previewRows, policy⟩, ⟨haxis, hdropZero, hcurrency, hmaxKpis, hmaxCharts,
      hmaxInsights, htopN, hpreviewRows, hpolicy⟩, ?_⟩
    obtain ⟨⟩ := s
    congr
  · rintro ⟨layer, hread, rfl⟩
    exact ⟨⟨⟨_, hread.axis, rfl⟩, ⟨_, hread.dropZeroMonths, rfl⟩,
      ⟨_, hread.currency, rfl⟩⟩, ⟨⟨_, hread.maxKpis, rfl⟩,
      ⟨_, hread.maxCharts, rfl⟩, ⟨_, hread.maxInsights, rfl⟩⟩,
      ⟨_, hread.topN, rfl⟩, ⟨_, hread.previewRows, rfl⟩,
      ⟨_, hread.policy, rfl⟩⟩

end Merged

/-! ## Settings files -/

theorem validate_eq_ok_iff {s s' : Settings} :
    s.validate = .ok s' ↔ s' = s ∧ s.IsUsable := by
  rw [validate]
  constructor
  · intro h
    split at h
    · contradiction
    · rename_i htopN
      split at h
      · contradiction
      · rename_i hcurrency
        cases h
        rw [Text.trim_eq_nil_iff] at hcurrency
        exact ⟨rfl, Nat.pos_of_ne_zero htopN, hcurrency⟩
  · rintro ⟨rfl, htopN, hcurrency⟩
    rw [← Text.trim_eq_nil_iff] at hcurrency
    rw [if_neg (Nat.ne_of_gt htopN), if_neg hcurrency]

section Overlay

variable {content : String} {members : List (String × Json)}

theorem ofOverlay_of_isOverlay (h : IsOverlay content members) :
    ofOverlay (some content) =
      match ofJson? (Json.merge ({} : Settings).toJson
        (.object (Json.lastOfMembers [] members))) with
      | some s => s.validate
      | none => .error (.settings
          (.misfit "a setting has a value of the wrong kind")) := by
  have hoverlay : overlay? content =
      some (.object (Json.lastOfMembers [] members)) := by
    rw [overlay?, h.parsed]
    exact if_pos ⟨h.shallow, h.sound⟩
  rw [ofOverlay, hoverlay]
  rfl

theorem ofJson?_overlay_eq_some_iff {s : Settings} :
    ofJson? (Json.merge ({} : Settings).toJson
        (.object (Json.lastOfMembers [] members))) = some s ↔
      ∃ layer : Layer, layer.IsReadFrom (Json.lastValue? members) ∧
        s = layer.onto {} := by
  have hlookup : (fun name => (Json.lastOfMembers [] members).lookup name) =
      Json.lastValue? members := by
    funext name
    rw [Json.lookup_lastOfMembers]
    exact Option.or_none
  rw [ofJson?_merge_eq_some_iff (Json.nodup_lastOfMembers (by simp) members),
    hlookup]

theorem ofOverlay_eq_ok_iff (h : IsOverlay content members) {s : Settings} :
    ofOverlay (some content) = .ok s ↔
      ∃ layer : Layer, layer.IsReadFrom (Json.lastValue? members) ∧
        s = layer.onto {} ∧ s.IsUsable := by
  rw [ofOverlay_of_isOverlay h]
  constructor
  · intro hok
    split at hok
    · rename_i s' hs'
      obtain ⟨rfl, husable⟩ := validate_eq_ok_iff.mp hok
      obtain ⟨layer, hread, honto⟩ := ofJson?_overlay_eq_some_iff.mp hs'
      exact ⟨layer, hread, honto, husable⟩
    · contradiction
  · rintro ⟨layer, hread, honto, husable⟩
    rw [ofJson?_overlay_eq_some_iff.mpr ⟨layer, hread, honto⟩]
    exact validate_eq_ok_iff.mpr ⟨rfl, husable⟩

def names : List String := builtIn.map Prod.fst

theorem Layer.IsReadFrom.congr {layer : Layer}
    {value? value?' : String → Option Json}
    (hsame : ∀ name ∈ names, value? name = value?' name)
    (h : layer.IsReadFrom value?) : layer.IsReadFrom value?' where
  axis := hsame "default_agg_mode" (by decide) ▸ h.axis
  dropZeroMonths := hsame "drop_all_zero_months" (by decide) ▸ h.dropZeroMonths
  currency := hsame "default_currency" (by decide) ▸ h.currency
  maxKpis := hsame "max_kpis" (by decide) ▸ h.maxKpis
  maxCharts := hsame "max_charts" (by decide) ▸ h.maxCharts
  maxInsights := hsame "max_insights" (by decide) ▸ h.maxInsights
  topN := hsame "default_top_n" (by decide) ▸ h.topN
  previewRows := hsame "preview_rows" (by decide) ▸ h.previewRows
  policy := hsame "failure_policy" (by decide) ▸ h.policy

private theorem ofOverlay_congr {content' : String}
    {members' : List (String × Json)}
    (h : IsOverlay content members) (h' : IsOverlay content' members')
    (hsame : ∀ name ∈ names,
      Json.lastValue? members' name = Json.lastValue? members name) :
    ofOverlay (some content') = ofOverlay (some content) := by
  rw [ofOverlay_of_isOverlay h, ofOverlay_of_isOverlay h']
  congr 1
  ext s
  rw [ofJson?_overlay_eq_some_iff, ofJson?_overlay_eq_some_iff]
  constructor
  · rintro ⟨layer, hread, honto⟩
    exact ⟨layer, hread.congr hsame, honto⟩
  · rintro ⟨layer, hread, honto⟩
    exact ⟨layer, hread.congr fun name hname => (hsame name hname).symm, honto⟩

end Overlay

/-! ## Settings of runs -/

private theorem isUsable_of_ofOverlay {content : Option String} {s : Settings}
    (h : ofOverlay content = .ok s) : s.IsUsable := by
  have hpatch : ∃ patch,
      (match ofJson? (Json.merge ({} : Settings).toJson patch) with
        | some s => s.validate
        | none => .error (.settings
            (.misfit "a setting has a value of the wrong kind"))) = .ok s := by
    cases content with
    | none => exact ⟨.object [], h⟩
    | some content =>
        rw [ofOverlay] at h
        cases hoverlay : overlay? content with
        | none =>
            rw [hoverlay] at h
            cases h
        | some patch =>
            rw [hoverlay] at h
            exact ⟨patch, h⟩
  obtain ⟨patch, hpatch⟩ := hpatch
  split at hpatch
  · obtain ⟨rfl, husable⟩ := validate_eq_ok_iff.mp hpatch
    exact husable
  · contradiction

private theorem isUsable_of_loadSettings {w : CommandLine.Surroundings}
    {a : CommandLine.Arguments} {s : Settings}
    (h : CommandLine.loadSettings w a = .ok s) : s.IsUsable := by
  obtain ⟨overlay, base, -, hbase, rfl⟩ :=
    CommandLine.loadSettings_eq_ok_iff.mp h
  have husable := isUsable_of_ofOverlay hbase
  exact ⟨husable.topN_pos, husable.currency_not_blank⟩

/--
A settings file that is an object is accepted exactly if each setting in it, in
the last of its members, is of its kind, a bar is shown and a currency is named;
each setting is then that of the file if it is given there, and the built-in one
otherwise.  Nothing else of the file counts.  The environment can change two
settings and no other, so a run shows at least one bar wherever there is a
category.
-/
theorem ofOverlay_layered {content : String} {members : List (String × Json)}
    (h : IsOverlay content members) :
    (∀ s, ofOverlay (some content) = .ok s ↔
      ∃ layer : Layer, layer.IsReadFrom (Json.lastValue? members) ∧
        s = layer.onto {} ∧ s.IsUsable) ∧
    (∀ content' members', IsOverlay content' members' →
      (∀ name ∈ names,
        Json.lastValue? members' name = Json.lastValue? members name) →
      ofOverlay (some content') = ofOverlay (some content)) ∧
    (∀ (s : Settings) (environment : String → Option String),
      ∃ axis dropZeroMonths,
        s.withEnvironment environment = { s with axis, dropZeroMonths }) ∧
    ∀ w a s, CommandLine.loadSettings w a = .ok s → s.IsUsable ∧
      ∀ (plan : ChartPlan) (d : Dataset) (o : Options) (chart : Chart) (x y),
        plan.IsOf .bars →
        plan.chart? d (o.resolve s) = .ok (some chart) →
        plan.xKey.bind d.column? = some x →
        plan.yKey.bind d.column? = some y →
        Dataset.HasCategory x.values y.values → chart.rows ≠ [] := by
  refine ⟨fun s => ofOverlay_eq_ok_iff h, fun content' members' h' hsame =>
    ofOverlay_congr h h' hsame, fun s environment => ⟨_, _, rfl⟩, ?_⟩
  intro w a s hload
  have husable := isUsable_of_loadSettings hload
  refine ⟨husable, fun plan d o chart x y hkind hchart hx hy hcategory => ?_⟩
  exact ChartPlan.rows_ne_nil_of_bars hkind hchart hx hy hcategory
    husable.topN_pos

theorem ofOverlay_layered_repeated :
    let content :=
      "\x7b\"default_top_n\":0,\"x\":\x7b\x7d,\"default_top_n\":3\x7d"
    let members : List (String × Json) := [("default_top_n", .natural 0),
      ("x", .object []), ("default_top_n", .natural 3)]
    let single := "\x7b\"default_top_n\":3\x7d"
    IsOverlay content members ∧
      IsOverlay single [("default_top_n", .natural 3)] ∧
      ofOverlay (some content) = .ok { topN := 3 } ∧
      ofOverlay (some single) = .ok { topN := 3 } := by
  intro content members single
  have hrepeated : IsOverlay content members := by
    refine ⟨?_, by decide, rfl⟩
    dsimp only [content, members]
    cbv
  have hsingle : IsOverlay single [("default_top_n", .natural 3)] := by
    refine ⟨?_, by decide, rfl⟩
    dsimp only [single]
    cbv
  obtain ⟨hok, hcongr, -⟩ := ofOverlay_layered hrepeated
  have hthree := (hok { topN := 3 }).mpr
    ⟨⟨none, none, none, none, none, none, some 3, none, none⟩,
      ⟨rfl, rfl, rfl, rfl, rfl, rfl, rfl, rfl, rfl⟩, rfl,
      (validate_eq_ok_iff.mp rfl).2⟩
  refine ⟨hrepeated, hsingle, hthree, (hcongr _ _ hsingle ?_).trans hthree⟩
  intro name hname
  fin_cases hname <;> rfl

end Settings

end Chartbook
