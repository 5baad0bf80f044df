import Mathlib.Data.List.TakeWhile
import Mathlib.Data.String.Basic
import Chartbook.CommandLine.Arguments
import Chartbook.Proofs.Except
import Chartbook.Proofs.Lookup

/-!
# Well-formed command lines

A command line lists options, each at most once, with the value of an option
either after an equals sign or in the next argument.  The arguments that are
read are exactly those lists that have the three needed options, and the order
of the options has no effect.
-/

namespace Chartbook.CommandLine

def Takes (name value : String) : Prop :=
  ∃ kind, optionKinds.lookup name = some kind ∧ kind ≠ .flag ∧
    (kind = .path → value ≠ "")

/-- Arguments that begin with an option, and those that come after it. -/
inductive Begins : List String → String × String → List String → Prop
  | flag {name : String} {rest : List String}
      (hname : optionKinds.lookup name = some .flag) :
      Begins (name :: rest) (name, "") rest
  | joined {name value : String} {rest : List String}
      (htakes : Takes name value) :
      Begins ((name ++ "=" ++ value) :: rest) (name, value) rest
  | separate {name value : String} {rest : List String}
      (htakes : Takes name value) (hvalue : looksLikeOption value = false) :
      Begins (name :: value :: rest) (name, value) rest

/-- Arguments that list options.  Two dashes may end them. -/
inductive Lists : List String → Given → Prop
  | nil : Lists [] []
  | dashes : Lists ["--"] []
  | cons {args rest : List String} {option : String × String} {options : Given}
      (first : Begins args option rest) (others : Lists rest options) :
      Lists args (option :: options)

structure AreOf (options : Given) (a : Arguments) : Prop where
  input : ("--input", a.input) ∈ options
  classification : ("--classification", a.classification) ∈ options
  plan : ("--plan", a.plan) ∈ options
  config : ∀ path, a.config = some path ↔ ("--config", path) ∈ options
  axisLabel : ∀ label,
    a.axisLabel = some label ↔ ("--agg-mode", label) ∈ options
  keepZeroMonths :
    a.keepZeroMonths = true ↔ "--keep-zero-months" ∈ options.map Prod.fst
  skipFailed : a.skipFailed = true ↔ "--skip-failed" ∈ options.map Prod.fst
  output : ∀ path, a.output = some path ↔ ("--output", path) ∈ options

def IsCommandLine (args : List String) (a : Arguments) : Prop :=
  ∃ options, Lists args options ∧ (options.map Prod.fst).Nodup ∧ AreOf options a

variable {given options : Given} {name value : String} {kind : OptionKind}
  {rest : List String} {a : Arguments}

/-! ## Names and values -/

theorem optionKinds_shape (h : optionKinds.lookup name = some kind) :
    ['-', '-'] <+: name.toList ∧ '=' ∉ name.toList ∧ name ≠ "--help" ∧
      name ≠ "--" := by
  have hshape : ∀ option ∈ optionKinds, ['-', '-'] <+: option.1.toList ∧
      '=' ∉ option.1.toList ∧ option.1 ≠ "--help" ∧ option.1 ≠ "--" := by
    decide
  obtain ⟨before, after, heq, -⟩ := List.lookup_eq_some_iff.mp h
  exact hshape (name, kind) (by simp [heq])

theorem isHelp_eq_false {s : String} (hdashes : ['-', '-'] <+: s.toList)
    (hne : s ≠ "--help") : isHelp s = false := by
  rw [isHelp, Bool.or_eq_false_iff]
  refine ⟨beq_false_of_ne hne, Bool.eq_false_iff.mpr fun hshort => ?_⟩
  have hprefix := String.startsWith_string_iff.mp hshort
  have heq := List.prefix_of_prefix_length_le hdashes hprefix (by decide)
  exact absurd heq (by decide)

theorem splitEquals_of_notMem {s : String} (h : '=' ∉ s.toList) :
    splitEquals s = (s, none) := by
  have hnil : s.toList.dropWhile (· ≠ '=') = [] := by
    refine List.dropWhile_eq_nil_iff.mpr fun c hc => ?_
    exact decide_eq_true fun heq => h (heq ▸ hc)
  rw [splitEquals, hnil]

theorem splitEquals_joined (h : '=' ∉ name.toList) :
    splitEquals (name ++ "=" ++ value) = (name, some value) := by
  have hname : ∀ c ∈ name.toList, decide (c ≠ '=') = true :=
    fun c hc => decide_eq_true fun heq => h (heq ▸ hc)
  have htext : (name ++ "=" ++ value).toList =
      name.toList ++ '=' :: value.toList := by
    simp [String.toList_append]
  have hdrop : (name.toList ++ '=' :: value.toList).dropWhile (· ≠ '=') =
      '=' :: value.toList := by
    rw [List.dropWhile_append_of_pos hname]
    rfl
  have htake : (name.toList ++ '=' :: value.toList).takeWhile (· ≠ '=') =
      name.toList := by
    rw [List.takeWhile_append_of_pos hname]
    simp
  rw [splitEquals, htext, hdrop]
  dsimp only
  rw [htake, String.ofList_toList, String.ofList_toList]

theorem eq_of_splitEquals_none {s : String} (h : splitEquals s = (name, none)) :
    s = name := by
  rw [splitEquals] at h
  split at h
  · cases h
    rfl
  · cases h

theorem eq_of_splitEquals_some {s : String}
    (h : splitEquals s = (name, some value)) : s = name ++ "=" ++ value := by
  rw [splitEquals] at h
  split at h
  · cases h
  · rename_i c after hdrop
    cases h
    have hstop := List.head?_dropWhile_not (fun c => decide (c ≠ '=')) s.toList
    rw [hdrop] at hstop
    have hc : c = '=' := by
      simpa using hstop
    subst hc
    have htext := List.takeWhile_append_dropWhile
      (p := fun c => decide (c ≠ '=')) (l := s.toList)
    rw [hdrop] at htext
    refine String.ext ?_
    simpa [String.toList_append] using htext.symm

/-! ## Options given once -/

theorem give_eq_ok_iff {given' : Given} :
    give given name value kind = .ok given' ↔
      name ∉ given.map Prod.fst ∧ (kind = .path → value ≠ "") ∧
        given' = (name, value) :: given := by
  rw [give]
  simp only [lookup_isSome_iff_mem]
  split
  · rename_i hmem
    simp [hmem]
  · rename_i hnew
    split
    · rename_i hempty
      simp [hempty]
    · rename_i hvalue
      constructor
      · rintro ⟨⟩
        exact ⟨hnew, fun hpath hempty => hvalue ⟨hpath, hempty⟩, rfl⟩
      · rintro ⟨-, -, rfl⟩
        rfl

theorem needed_eq_ok_iff (h : (options.map Prod.fst).Nodup) :
    needed options name = .ok value ↔ (name, value) ∈ options := by
  rw [← lookup_eq_some_iff_mem h, needed]
  cases options.lookup name <;> simp

theorem argumentsOf_eq_ok_iff (h : (options.map Prod.fst).Nodup) :
    argumentsOf options = .ok a ↔ AreOf options a := by
  simp only [argumentsOf, bind_eq_ok, needed_eq_ok_iff h]
  constructor
  · rintro ⟨input, hinput, classification, hclassification, plan, hplan, heq⟩
    cases heq
    exact ⟨hinput, hclassification, hplan, fun _ => lookup_eq_some_iff_mem h,
      fun _ => lookup_eq_some_iff_mem h, lookup_isSome_iff_mem,
      lookup_isSome_iff_mem, fun _ => lookup_eq_some_iff_mem h⟩
  · intro hof
    refine ⟨_, hof.input, _, hof.classification, _, hof.plan, ?_⟩
    have hoption {field : Option String} {name : String}
        (hfield : ∀ v, field = some v ↔ (name, v) ∈ options) :
        options.lookup name = field := by
      ext v
      rw [hfield v]
      exact lookup_eq_some_iff_mem h
    have hflag {field : Bool} {name : String}
        (hfield : field = true ↔ name ∈ options.map Prod.fst) :
        (options.lookup name).isSome = field :=
      Bool.eq_iff_iff.mpr (lookup_isSome_iff_mem.trans hfield.symm)
    rw [hoption hof.config, hoption hof.axisLabel, hoption hof.output,
      hflag hof.keepZeroMonths, hflag hof.skipFailed]
    rfl

/-! ## Scanning -/

theorem Begins.length_lt {args : List String} {option : String × String}
    (h : Begins args option rest) : rest.length < args.length := by
  cases h <;> simp only [List.length_cons] <;> omega

private theorem give_of_new (hnew : name ∉ given.map Prod.fst)
    (hvalue : kind = .path → value ≠ "") :
    give given name value kind = .ok ((name, value) :: given) :=
  give_eq_ok_iff.mpr ⟨hnew, hvalue, rfl⟩

theorem scan_of_begins {args : List String} {option : String × String}
    (h : Begins args option rest) (hnew : option.1 ∉ given.map Prod.fst) :
    scan given args = scan (option :: given) rest := by
  cases h with
  | @flag name _ hname =>
      obtain ⟨hdashes, hequals, hhelp, hstop⟩ := optionKinds_shape hname
      have hgive : give given name "" .flag = .ok ((name, "") :: given) :=
        give_of_new hnew fun h => nomatch h
      rw [scan.eq_def]
      simp only [isHelp_eq_false hdashes hhelp, hstop,
        splitEquals_of_notMem hequals, hname, hgive, Bool.false_eq_true,
        if_false]
  | @joined name value _ htakes =>
      obtain ⟨kind, hname, hkind, hvalue⟩ := htakes
      obtain ⟨hdashes, hequals, -, -⟩ := optionKinds_shape hname
      have htext : (name ++ "=" ++ value).toList =
          name.toList ++ '=' :: value.toList := by
        simp [String.toList_append]
      have hother (s : String) (hs : '=' ∉ s.toList) :
          name ++ "=" ++ value ≠ s := by
        rintro rfl
        exact hs (by simp [htext])
      have hhelp : isHelp (name ++ "=" ++ value) = false := by
        refine isHelp_eq_false ?_ (hother _ (by decide))
        rw [htext]
        exact hdashes.trans (List.prefix_append _ _)
      cases kind with
      | flag => contradiction
      | path | word =>
          rw [scan.eq_def]
          simp only [hhelp, hother "--" (by decide),
            splitEquals_joined hequals, hname, give_of_new hnew hvalue,
            Bool.false_eq_true, if_false]
  | @separate name value _ htakes hword =>
      obtain ⟨kind, hname, hkind, hvalue⟩ := htakes
      obtain ⟨hdashes, hequals, hhelp, hstop⟩ := optionKinds_shape hname
      cases kind with
      | flag => contradiction
      | path | word =>
          rw [scan.eq_def]
          simp only [isHelp_eq_false hdashes hhelp, hstop,
            splitEquals_of_notMem hequals, hname, hword,
            give_of_new hnew hvalue, Bool.false_eq_true, if_false]

private theorem of_give {given' : Given}
    (h : (match give given name value kind with
      | .ok given => scan given rest
      | .error fault => .fault fault) = .given given') :
    name ∉ given.map Prod.fst ∧ (kind = .path → value ≠ "") ∧
      scan ((name, value) :: given) rest = .given given' := by
  cases hgive : give given name value kind with
  | error fault =>
      rw [hgive] at h
      cases h
  | ok given'' =>
      rw [hgive] at h
      obtain ⟨hnew, hvalue, rfl⟩ := give_eq_ok_iff.mp hgive
      exact ⟨hnew, hvalue, h⟩

private theorem scan_cases {args : List String} {given' : Given}
    (h : scan given args = .given given') :
    ((args = [] ∨ args = ["--"]) ∧ given' = given) ∨
      ∃ option rest, Begins args option rest ∧
        option.1 ∉ given.map Prod.fst ∧
        scan (option :: given) rest = .given given' := by
  unfold scan at h
  split at h
  · cases h
    exact .inl ⟨.inl rfl, rfl⟩
  · split at h
    · contradiction
    split at h
    · rename_i hstop
      split at h
      · cases h
        exact .inl ⟨.inr (by rw [hstop]), rfl⟩
      · contradiction
    · rename_i argument rest _ _
      right
      cases hsplit : splitEquals argument with
      | mk name value =>
          rw [hsplit] at h
          dsimp only at h
          split at h
          · contradiction
          · contradiction
          · rename_i hname
            obtain rfl := eq_of_splitEquals_none hsplit
            obtain ⟨hnew, -, hscan⟩ := of_give h
            exact ⟨_, _, .flag hname, hnew, hscan⟩
          · rename_i kind value hkind hname
            obtain rfl := eq_of_splitEquals_some hsplit
            obtain ⟨hnew, hvalue, hscan⟩ := of_give h
            exact ⟨_, _, .joined ⟨kind, hname, hkind, hvalue⟩, hnew, hscan⟩
          · contradiction
          · rename_i kind value rest hkind hname
            obtain rfl := eq_of_splitEquals_none hsplit
            split at h
            · contradiction
            · rename_i hword
              obtain ⟨hnew, hvalue, hscan⟩ := of_give h
              exact ⟨_, _, .separate ⟨kind, hname, hkind, hvalue⟩
                (by simpa using hword), hnew, hscan⟩

theorem nodup_append_cons {option : String × String} :
    ((options ++ option :: given).map Prod.fst).Nodup ↔
      (((option :: options) ++ given).map Prod.fst).Nodup := by
  simp only [List.map_append, List.map_cons, List.cons_append]
  exact List.nodup_middle

private theorem exists_lists_of_scan {args : List String} {given' : Given}
    (hgiven : (given.map Prod.fst).Nodup)
    (h : scan given args = .given given') :
    ∃ options, Lists args options ∧ given' = options.reverse ++ given ∧
      ((options ++ given).map Prod.fst).Nodup := by
  induction hn : args.length using Nat.strong_induction_on
    generalizing given args with
  | _ n ih =>
      rcases scan_cases h with ⟨hargs, rfl⟩ | ⟨option, rest, first, hnew, hscan⟩
      · rcases hargs with rfl | rfl
        · exact ⟨[], .nil, rfl, hgiven⟩
        · exact ⟨[], .dashes, rfl, hgiven⟩
      · have hgiven' : ((option :: given).map Prod.fst).Nodup :=
          List.nodup_cons.mpr ⟨hnew, hgiven⟩
        obtain ⟨options, hlists, rfl, hnodup⟩ :=
          ih rest.length (hn ▸ first.length_lt) hgiven' hscan rfl
        exact ⟨option :: options, .cons first hlists, by simp,
          nodup_append_cons.mp hnodup⟩

private theorem scan_of_lists {args : List String} (h : Lists args options)
    (hnodup : ((options ++ given).map Prod.fst).Nodup) :
    scan given args = .given (options.reverse ++ given) := by
  induction h generalizing given with
  | nil => rfl
  | dashes =>
      rw [scan.eq_def]
      have hhelp : isHelp "--" = false :=
        isHelp_eq_false (by decide) (by decide)
      simp [hhelp]
  | @cons args rest option options first others ih =>
      have hnew : option.1 ∉ given.map Prod.fst := by
        intro hmem
        have hlater : option.1 ∈ (options ++ given).map Prod.fst := by
          rw [List.map_append]
          exact List.mem_append_right _ hmem
        exact (List.nodup_cons.mp hnodup).1 hlater
      rw [scan_of_begins first hnew, ih (nodup_append_cons.mpr hnodup)]
      simp

/-! ## Requests -/

theorem AreOf.perm {options' : Given} (hperm : options.Perm options')
    (h : AreOf options a) : AreOf options' a where
  input := hperm.mem_iff.mp h.input
  classification := hperm.mem_iff.mp h.classification
  plan := hperm.mem_iff.mp h.plan
  config path := (h.config path).trans hperm.mem_iff
  axisLabel label := (h.axisLabel label).trans hperm.mem_iff
  keepZeroMonths := h.keepZeroMonths.trans (hperm.map Prod.fst).mem_iff
  skipFailed := h.skipFailed.trans (hperm.map Prod.fst).mem_iff
  output path := (h.output path).trans hperm.mem_iff

theorem ofArguments_eq_run_iff {args : List String} :
    Request.ofArguments args = .run a ↔ IsCommandLine args a := by
  have hof {options : Given} (hnodup : (options.map Prod.fst).Nodup) :
      argumentsOf options.reverse = .ok a ↔ AreOf options a := by
    have hperm := List.reverse_perm options
    rw [argumentsOf_eq_ok_iff (((hperm.map Prod.fst).nodup_iff).mpr hnodup)]
    exact ⟨AreOf.perm hperm, AreOf.perm hperm.symm⟩
  rw [Request.ofArguments]
  constructor
  · intro h
    split at h
    · contradiction
    · contradiction
    · rename_i given hscan
      have hnone : (([] : Given).map Prod.fst).Nodup := List.nodup_nil
      obtain ⟨options, hlists, rfl, hnodup⟩ := exists_lists_of_scan hnone hscan
      rw [List.append_nil] at h hnodup
      split at h
      · rename_i a' ha'
        cases h
        exact ⟨options, hlists, hnodup, (hof hnodup).mp ha'⟩
      · contradiction
  · rintro ⟨options, hlists, hnodup, hareOf⟩
    have hscan : scan [] args = .given options.reverse := by
      rw [scan_of_lists hlists (by rwa [List.append_nil]), List.append_nil]
    rw [hscan]
    dsimp only
    rw [(hof hnodup).mpr hareOf]

end Chartbook.CommandLine
