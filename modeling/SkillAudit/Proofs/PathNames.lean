import Mathlib
import SkillAudit.Proofs.FileTree

/-!
Paths as the steps they mean. Joining paths appends their steps, the parent of a path is one step
short of it, and slashes that are repeated or come last make no step.
-/
namespace SkillAudit

/-- What a filter drops anyway may be dropped from the end before. -/
theorem Text.filter_dropEndWhile {α : Type} {p q : α → Bool} (h : ∀ a, p a = true → q a = false)
    (l : List α) : (dropEndWhile p l).filter q = l.filter q := by
  have htail : (l.rtakeWhile p).filter q = [] :=
    List.filter_eq_nil_iff.mpr fun a ha => by simp [h a (List.mem_rtakeWhile_imp ha)]
  calc (dropEndWhile p l).filter q
      = (l.rdropWhile p ++ l.rtakeWhile p).filter q := by
        rw [List.filter_append, htail, List.append_nil]
        rfl
    _ = l.filter q := by rw [List.rdropWhile_append_rtakeWhile]

theorem Text.dropEndWhile_concat {α : Type} {p : α → Bool} {a : α} (h : p a = false) (l : List α) :
    dropEndWhile p (l ++ [a]) = l ++ [a] :=
  List.rdropWhile_concat_neg p l a (by simp [h])

theorem Text.dropEndWhile_append {α : Type} {p : α → Bool} {tail : List α}
    (h : ∀ a ∈ tail, p a = true) (l : List α) :
    dropEndWhile p (l ++ tail) = dropEndWhile p l := by
  rw [dropEndWhile, List.reverse_append, List.dropWhile_append_of_pos (by simpa using h)]
  rfl

theorem Text.dropEndWhile_eq_self {α : Type} {p : α → Bool} {l : List α}
    (h : ∀ a ∈ l, p a = false) : dropEndWhile p l = l :=
  List.rdropWhile_eq_self_iff.mpr fun hne => by simp [h _ (List.getLast_mem hne)]

/-- A list with an element that fails `p` has a last one. -/
theorem Text.exists_last_not {α : Type} (p : α → Bool) (l : List α) :
    (∀ a ∈ l, p a = true) ∨
      ∃ front last tail, l = front ++ last :: tail ∧ p last = false ∧ ∀ a ∈ tail, p a = true := by
  induction l using List.reverseRecOn with
  | nil => exact .inl (by simp)
  | append_singleton l a ih =>
    cases ha : p a with
    | false => exact .inr ⟨l, a, [], rfl, ha, by simp⟩
    | true =>
      rcases ih with hall | ⟨front, last, tail, rfl, hlast, htail⟩
      · exact .inl fun b hb => (List.mem_append.mp hb).elim (hall b) (by simp_all)
      · refine .inr ⟨front, last, tail ++ [a], by simp, hlast, fun b hb => ?_⟩
        exact (List.mem_append.mp hb).elim (htail b) (by simp_all)

namespace Path

def steps (path : String) : List String := (pieces path).filter fun p => !isIdle p

theorem pieces_ne_nil (path : String) : pieces path ≠ [] := by
  simp [pieces_eq, List.splitOn, List.splitOnP_ne_nil]

/-- A slash separates the pieces before it from those after it. -/
theorem pieces_slash (a b : String) : pieces (a ++ "/" ++ b) = pieces a ++ pieces b := by
  have hlist : (a ++ "/" ++ b).toList = a.toList ++ '/' :: b.toList := by simp
  simp only [pieces_eq, hlist, List.splitOn]
  rw [List.splitOnP_append_cons _ _ (by simp), List.map_append]

theorem slashless_of_mem_pieces {path piece : String} (h : piece ∈ pieces path) :
    '/' ∉ piece.toList := by
  have hsplit : ∀ (cs part : List Char), part ∈ cs.splitOn '/' → '/' ∉ part := by
    intro cs
    induction cs with
    | nil => simp [List.splitOn]
    | cons c cs ih =>
      intro part hpart
      rw [List.splitOn, List.splitOnP_cons_eq_if_modifyHead] at hpart
      by_cases hc : c = '/'
      · simp only [hc, beq_self_eq_true, if_true, List.mem_cons] at hpart
        rcases hpart with rfl | hpart
        · simp
        · exact ih part hpart
      · simp only [beq_iff_eq, hc, if_false] at hpart
        cases hparts : cs.splitOnP (· == '/') with
        | nil => exact absurd hparts (List.splitOnP_ne_nil _ _)
        | cons head parts =>
          rw [hparts, List.modifyHead_cons, List.mem_cons] at hpart
          rcases hpart with rfl | hpart
          · have hhead : '/' ∉ head := ih head (by simp [List.splitOn, hparts])
            simpa [Ne.symm hc] using hhead
          · exact ih part (by simp [List.splitOn, hparts, hpart])
  rw [pieces_eq] at h
  obtain ⟨part, hpart, rfl⟩ := List.mem_map.mp h
  simpa using hsplit _ part hpart

theorem pieces_empty : pieces "" = [""] := by
  simp [pieces_eq, List.splitOn]

/-- A text without a slash is its only piece. -/
theorem pieces_slashless {name : String} (h : '/' ∉ name.toList) : pieces name = [name] := by
  have hnames : pieces (String.intercalate "/" [name]) = [name] :=
    pieces_intercalate (by simp) (by simpa using h)
  simpa using hnames

/-- Where there is a slash in front, the first piece is empty and another one follows. -/
theorem isAbsolute_iff {path first : String} {rest : List String}
    (h : pieces path = first :: rest) : isAbsolute path = true ↔ first = "" ∧ rest ≠ [] := by
  have hmem : first ∈ pieces path := by simp [h]
  have hfirst := slashless_of_mem_pieces hmem
  have hpath : path = String.intercalate "/" (first :: rest) := by rw [← h, intercalate_pieces]
  cases hchars : first.toList with
  | nil =>
    obtain rfl : first = "" := String.toList_injective hchars
    cases rest with
    | nil => simp [hpath, isAbsolute]
    | cons next rest =>
      rw [String.intercalate_cons_of_ne_nil (by simp)] at hpath
      simp [hpath, isAbsolute]
  | cons c cs =>
    have hne : first ≠ "" := by
      rintro rfl
      simp at hchars
    have hc : c ≠ '/' := by
      rintro rfl
      exact hfirst (by simp [hchars])
    cases rest with
    | nil => simp [hpath, isAbsolute, hchars, hc]
    | cons next rest =>
      rw [String.intercalate_cons_of_ne_nil (by simp)] at hpath
      simp [hpath, isAbsolute, hchars, hc, hne]

theorem endsInSlash_eq_false {path last : String} {front : List String}
    (h : pieces path = front ++ [last]) (hlast : last ≠ "") : World.endsInSlash path = false := by
  have hmem : last ∈ pieces path := by simp [h]
  have hslash := slashless_of_mem_pieces hmem
  have hchars : last.toList ≠ [] := fun hnil => hlast (String.toList_injective hnil)
  have hpath : ∃ before, path.toList = before ++ last.toList := by
    by_cases hfront : front = []
    · exact ⟨[], by rw [← intercalate_pieces path, h, hfront]; simp⟩
    · refine ⟨(String.intercalate "/" front ++ "/").toList, ?_⟩
      rw [← intercalate_pieces path, h, String.intercalate_append_of_ne_nil hfront (by simp)]
      simp
  obtain ⟨before, hpath⟩ := hpath
  rw [World.endsInSlash, hpath, List.getLast?_append_of_ne_nil _ hchars]
  simp only [beq_eq_false_iff_ne, ne_eq]
  exact fun hlast => hslash (List.mem_of_getLast? hlast)

/-- The names that a walk follows are the steps, but for idle ones. -/
theorem filter_namesOf (path : String) :
    (World.namesOf path).filter (fun p => !isIdle p) = steps path :=
  Text.filter_dropEndWhile (fun p hp => by simp_all [isIdle]) _

theorem namesOf_eq {path last : String} {front : List String}
    (h : pieces path = front ++ [last]) (hlast : last ≠ "") :
    World.namesOf path = front ++ [last] := by
  rw [World.namesOf, h, Text.dropEndWhile_concat (by simpa using hlast)]

/-- A path that ends in a name has it for its last name. -/
theorem fileName_of_pieces {path name : String} {front : List String}
    (h : pieces path = front ++ [name]) (hname : World.IsStep name) :
    fileName path = some name ∧ (meaningful path).dropLast = front := by
  have hbusy : isIdle name = false := hname.busy
  have hkept : meaningful path = front ++ [name] := by
    rw [meaningful, h]
    cases front with
    | nil => rfl
    | cons first front =>
      simp only [List.cons_append]
      rw [Text.dropEndWhile_concat hbusy]
  have hplain : (name == "" || name == "." || name == "..") = false := by
    simpa [isIdle, hname.down] using hbusy
  refine ⟨?_, by rw [hkept, List.dropLast_concat]⟩
  rw [fileName, hkept, List.getLast?_concat]
  simp [hplain]

/-! Joined paths. -/

theorem steps_slash (a b : String) : steps (a ++ "/" ++ b) = steps a ++ steps b := by
  rw [steps, pieces_slash, List.filter_append]
  rfl

theorem steps_empty : steps "" = [] := by decide

/-- The pieces of a joined path end in those of its second part; the others mean the first part. -/
theorem pieces_join {rel : String} (hrel : isAbsolute rel = false) (base : String) :
    ∃ front, pieces (join base rel) = front ++ pieces rel ∧
      front.filter (fun p => !isIdle p) = steps base := by
  rw [join, if_neg (by simp [hrel])]
  by_cases hempty : base = ""
  · exact ⟨[], by simp [hempty], by simp [hempty, steps_empty]⟩
  · rw [if_neg (by simpa using hempty)]
    by_cases hslash : base.toList.getLast? = some '/'
    · rw [if_pos (by simpa using hslash)]
      obtain ⟨before, hbefore⟩ := List.getLast?_eq_some_iff.mp hslash
      have hbase : base = String.ofList before ++ "/" := by
        refine String.toList_injective ?_
        simp [hbefore]
      refine ⟨pieces (String.ofList before), by rw [hbase, pieces_slash], ?_⟩
      have hsteps := steps_slash (String.ofList before) ""
      rw [String.append_empty, ← hbase, steps_empty, List.append_nil] at hsteps
      exact hsteps.symm
    · rw [if_neg (by simpa using hslash)]
      exact ⟨pieces base, pieces_slash base rel, rfl⟩

theorem steps_join {rel : String} (hrel : isAbsolute rel = false) (base : String) :
    steps (join base rel) = steps base ++ steps rel := by
  obtain ⟨front, hpieces, hfront⟩ := pieces_join hrel base
  rw [steps, hpieces, List.filter_append, hfront]
  rfl

theorem isAbsolute_join {rel : String} (hrel : isAbsolute rel = false) (base : String) :
    isAbsolute (join base rel) = isAbsolute base := by
  rw [join, if_neg (by simp [hrel])]
  by_cases hempty : base = ""
  · rw [if_pos (by simpa using hempty), hrel, hempty]
    rfl
  · have hchars : base.toList ≠ [] := fun hnil => hempty (String.toList_injective hnil)
    rw [if_neg (by simpa using hempty)]
    split
    · simp [isAbsolute, List.head?_append_of_ne_nil _ hchars]
    · simp [isAbsolute, List.head?_append_of_ne_nil _ hchars]

/-! Names. -/

section Name
variable {name : String} (h : World.IsName name)
include h

theorem isIdle_name : isIdle name = false := by
  simp [isIdle, h.nonempty, h.notHere]

theorem isStep_name : World.IsStep name where
  busy := isIdle_name h
  down := by simpa using h.notUp

theorem pieces_name : pieces name = [name] := pieces_slashless h.slashless

theorem steps_name : steps name = [name] := by
  simp [steps, pieces_name h, isIdle_name h]

theorem isAbsolute_name : isAbsolute name = false := by
  cases hname : isAbsolute name with
  | false => rfl
  | true => exact absurd rfl ((isAbsolute_iff (pieces_name h)).mp hname).2

theorem pieces_join_name (base : String) : ∃ front, pieces (join base name) = front ++ [name] ∧
    front.filter (fun p => !isIdle p) = steps base := by
  obtain ⟨front, hpieces, hfront⟩ := pieces_join (isAbsolute_name h) base
  exact ⟨front, by rw [hpieces, pieces_name h], hfront⟩

theorem join_name_ne_empty (base : String) : join base name ≠ "" := by
  intro hempty
  obtain ⟨front, hpieces, -⟩ := pieces_join_name h base
  rw [hempty, pieces_empty] at hpieces
  exact h.nonempty (by simpa using (congrArg List.getLast? hpieces).symm)

theorem steps_join_name (base : String) : steps (join base name) = steps base ++ [name] := by
  rw [steps_join (isAbsolute_name h), steps_name h]

theorem fileName_join_name (base : String) : fileName (join base name) = some name := by
  obtain ⟨front, hpieces, -⟩ := pieces_join_name h base
  exact (fileName_of_pieces hpieces (isStep_name h)).1

theorem endsInSlash_join_name (base : String) : World.endsInSlash (join base name) = false := by
  obtain ⟨front, hpieces, -⟩ := pieces_join_name h base
  exact endsInSlash_eq_false hpieces h.nonempty

end Name

/-! Parents. -/

/-- Where the rest of a path means nothing, its first piece is its only step. -/
theorem parent_of_idle {path first : String} {rest : List String}
    (h : pieces path = first :: rest) (hidle : ∀ p ∈ rest, isIdle p = true) :
    parent path = if first = "" then none else some "" := by
  have hrest : Text.dropEndWhile isIdle rest = [] := List.rdropWhile_eq_nil_iff.mpr hidle
  simp [parent, meaningful, h, hrest]

/-- Otherwise the last piece that means a step is dropped, with what is idle around it. -/
theorem parent_of_busy {path first last : String} {mid idles : List String}
    (h : pieces path = first :: (mid ++ last :: idles)) (hlast : isIdle last = false)
    (hidle : ∀ p ∈ idles, isIdle p = true) :
    parent path = some (if first :: Text.dropEndWhile isIdle mid = [""] then "/"
      else String.intercalate "/" (first :: Text.dropEndWhile isIdle mid)) := by
  have hrest : Text.dropEndWhile isIdle (mid ++ last :: idles) = mid ++ [last] := by
    rw [List.append_cons, Text.dropEndWhile_append hidle, Text.dropEndWhile_concat hlast]
  rw [parent, meaningful, h]
  simp only [hrest]
  cases mid with
  | nil =>
    by_cases hfirst : first = ""
    · simp [hfirst, Text.dropEndWhile]
    · simp [hfirst, Text.dropEndWhile]
  | cons next mid =>
    cases hmid : mid ++ [last] with
    | nil => simp at hmid
    | cons a rest =>
      have hinit : (next :: a :: rest).dropLast = next :: mid := by
        rw [← hmid, ← List.cons_append, List.dropLast_concat]
      simp [hmid, hinit]

/-- A parent is one step short of its path, and begins where the path does. -/
theorem steps_parent {path up : String} (h : parent path = some up) :
    steps up = (steps path).dropLast ∧ isAbsolute up = isAbsolute path := by
  cases hpieces : pieces path with
  | nil => exact absurd hpieces (pieces_ne_nil path)
  | cons first rest =>
    have habs := isAbsolute_iff hpieces
    rcases Text.exists_last_not isIdle rest with hidle | ⟨mid, last, idles, rfl, hlast, hidle⟩
    · have hrest : rest.filter (fun p => !isIdle p) = [] :=
        List.filter_eq_nil_iff.mpr fun p hp => by simp [hidle p hp]
      rw [parent_of_idle hpieces hidle] at h
      by_cases hfirst : first = ""
      · simp [hfirst] at h
      · rw [if_neg hfirst] at h
        obtain rfl := Option.some.inj h
        refine ⟨?_, ?_⟩
        · rw [steps_empty, steps, hpieces, List.filter_cons, hrest]
          split <;> rfl
        · exact (Bool.eq_false_iff.mpr fun hpath => hfirst (habs.mp hpath).1).symm
    · rw [parent_of_busy hpieces hlast hidle] at h
      obtain rfl := Option.some.inj h
      have hsteps : (steps path).dropLast =
          (first :: Text.dropEndWhile isIdle mid).filter (fun p => !isIdle p) := by
        have hidles : idles.filter (fun p => !isIdle p) = [] :=
          List.filter_eq_nil_iff.mpr fun p hp => by simp [hidle p hp]
        have hmid := Text.filter_dropEndWhile (p := isIdle) (q := fun p => !isIdle p)
          (fun _ hp => by simp [hp]) mid
        have htail : (last :: idles).filter (fun p => !isIdle p) = [last] := by
          rw [List.filter_cons, hidles, if_pos (by simp [hlast])]
        rw [steps, hpieces, ← List.cons_append, List.filter_append, htail, List.dropLast_concat,
          List.filter_cons, List.filter_cons, hmid]
      rw [hsteps]
      by_cases hroot : first :: Text.dropEndWhile isIdle mid = [""]
      · rw [if_pos hroot, hroot]
        refine ⟨by decide, ?_⟩
        have hfirst : first = "" := by simpa using congrArg List.head? hroot
        exact Bool.eq_iff_iff.mpr (by simp [habs, hfirst]; decide)
      · rw [if_neg hroot]
        have hkept : pieces (String.intercalate "/" (first :: Text.dropEndWhile isIdle mid)) =
            first :: Text.dropEndWhile isIdle mid := by
          have hsub : Text.dropEndWhile isIdle mid ⊆ mid :=
            (List.rdropWhile_prefix isIdle mid).subset
          refine pieces_intercalate (by simp) fun p hp => ?_
          have hmem : p ∈ pieces path := by
            rw [hpieces]
            rcases List.mem_cons.mp hp with rfl | hp
            · simp
            · simp [hsub hp]
          exact slashless_of_mem_pieces hmem
        refine ⟨by rw [steps, hkept], Bool.eq_iff_iff.mpr ?_⟩
        rw [isAbsolute_iff hkept, habs]
        constructor
        · rintro ⟨hfirst, -⟩
          exact ⟨hfirst, by simp⟩
        · rintro ⟨hfirst, -⟩
          exact ⟨hfirst, fun hnil => hroot (by rw [hfirst, hnil])⟩

/-- A path that is continued by a name has a parent, which means the path. -/
theorem parent_join_name {name : String} (h : World.IsName name) (base : String) :
    ∃ up, parent (join base name) = some up ∧ isAbsolute up = isAbsolute base ∧
      steps up = steps base := by
  obtain ⟨front, hpieces, -⟩ := pieces_join_name h base
  have hsome : ∃ up, parent (join base name) = some up := by
    cases front with
    | nil =>
      rw [parent_of_idle hpieces (by simp), if_neg h.nonempty]
      exact ⟨_, rfl⟩
    | cons first front =>
      have hlast : pieces (join base name) = first :: (front ++ name :: []) := hpieces
      exact ⟨_, parent_of_busy hlast (isIdle_name h) (by simp)⟩
  obtain ⟨up, hup⟩ := hsome
  obtain ⟨hsteps, habs⟩ := steps_parent hup
  rw [steps_join_name h, List.dropLast_concat] at hsteps
  rw [isAbsolute_join (isAbsolute_name h)] at habs
  exact ⟨up, hup, habs, hsteps⟩

def extend (base : String) (names : List String) : String :=
  String.intercalate "/" (pieces base ++ names)

theorem extend_nil (base : String) : extend base [] = base := by
  rw [extend, List.append_nil, intercalate_pieces]

section Extend
variable {names : List String} (hnames : ∀ name ∈ names, World.IsName name)
include hnames

theorem pieces_extend (base : String) : pieces (extend base names) = pieces base ++ names := by
  refine pieces_intercalate (by simp [pieces_ne_nil]) fun p hp => ?_
  rcases List.mem_append.mp hp with hp | hp
  · exact slashless_of_mem_pieces hp
  · exact (hnames p hp).slashless

theorem steps_extend (base : String) : steps (extend base names) = steps base ++ names := by
  have hbusy : names.filter (fun p => !isIdle p) = names :=
    List.filter_eq_self.mpr fun p hp => by simp [isIdle_name (hnames p hp)]
  rw [steps, pieces_extend hnames base, List.filter_append, hbusy]
  rfl

end Extend

section Ending
variable {base last : String} {front : List String} (hbase : pieces base = front ++ [last])
  (hlast : isIdle last = false)
include hbase hlast

theorem isAbsolute_extend {names : List String} (hnames : ∀ name ∈ names, World.IsName name) :
    isAbsolute (extend base names) = isAbsolute base := by
  have hext := pieces_extend hnames base
  rw [hbase] at hext
  cases front with
  | nil =>
    have hne : last ≠ "" := by
      rintro rfl
      simp [isIdle] at hlast
    have hext : pieces (extend base names) = last :: names := by simpa using hext
    exact Bool.eq_iff_iff.mpr (by rw [isAbsolute_iff hext, isAbsolute_iff hbase]; simp [hne])
  | cons first front =>
    exact Bool.eq_iff_iff.mpr (by rw [isAbsolute_iff hext, isAbsolute_iff hbase]; simp)

theorem parent_extend {names : List String} {name : String}
    (hnames : ∀ n ∈ names ++ [name], World.IsName n) :
    parent (extend base (names ++ [name])) = some (extend base names) := by
  have hname : isIdle name = false := isIdle_name (hnames name (by simp))
  have hbusy : ∀ n ∈ names, isIdle n = false := fun n hn => isIdle_name (hnames n (by simp [hn]))
  have hpieces := pieces_extend hnames base
  rw [hbase] at hpieces
  cases front with
  | nil =>
    have hfirst : last ≠ "" := by
      rintro rfl
      simp [isIdle] at hlast
    have hkept : Text.dropEndWhile isIdle names = names := Text.dropEndWhile_eq_self hbusy
    have hpieces : pieces (extend base (names ++ [name])) = last :: (names ++ name :: []) := hpieces
    rw [parent_of_busy hpieces hname (by simp), hkept, if_neg (by simp [hfirst]), extend, hbase]
    rfl
  | cons first front =>
    have hkept : Text.dropEndWhile isIdle (front ++ last :: names) = front ++ last :: names := by
      refine List.rdropWhile_eq_self_iff.mpr fun hne => ?_
      have hmem : (front ++ last :: names).getLast hne ∈ last :: names := by
        rw [List.getLast_append_of_ne_nil _ (by simp)]
        exact List.getLast_mem _
      rcases List.mem_cons.mp hmem with hlast' | hmem
      · simp [hlast', hlast]
      · exact Bool.eq_false_iff.mp (hbusy _ hmem)
    have hpieces : pieces (extend base (names ++ [name])) =
        first :: ((front ++ last :: names) ++ name :: []) := by simpa using hpieces
    rw [parent_of_busy hpieces hname (by simp), hkept, if_neg (by simp), extend, hbase]
    simp

theorem join_intercalate {names : List String} (hne : names ≠ [])
    (hnames : ∀ name ∈ names, World.IsName name) :
    join base (String.intercalate "/" names) = extend base names := by
  have hlastne : last ≠ "" := by
    rintro rfl
    simp [isIdle] at hlast
  have hrel : isAbsolute (String.intercalate "/" names) = false := by
    cases names with
    | nil => exact absurd rfl hne
    | cons first rest =>
      have hpieces : pieces (String.intercalate "/" (first :: rest)) = first :: rest :=
        pieces_intercalate (by simp) fun n hn => (hnames n hn).slashless
      have hfirst : first ≠ "" := (hnames first (by simp)).nonempty
      exact Bool.eq_false_iff.mpr fun habs => hfirst ((isAbsolute_iff hpieces).mp habs).1
  have hempty : base ≠ "" := by
    rintro rfl
    rw [pieces_empty] at hbase
    exact hlastne (by simpa using (congrArg List.getLast? hbase).symm)
  have hslash : (base.toList.getLast? == some '/') = false := endsInSlash_eq_false hbase hlastne
  rw [join, hrel, hslash, if_neg (by simp), if_neg (by simpa using hempty), if_neg (by simp), extend,
    String.intercalate_append_of_ne_nil (pieces_ne_nil base) hne, intercalate_pieces]

end Ending

end Path

theorem World.IsPath.of_extend {base : String} {names : List String}
    (h : IsPath (Path.extend base names)) (hbase : base ≠ "") : IsPath base := by
  by_cases hne : names = []
  · rwa [hne, Path.extend_nil] at h
  · have hlong : Path.extend base names = base ++ "/" ++ String.intercalate "/" names := by
      rw [Path.extend, String.intercalate_append_of_ne_nil (Path.pieces_ne_nil base) hne,
        Path.intercalate_pieces]
    rw [hlong] at h
    have hzero := h.noZero
    have hshort := h.short
    simp only [String.toList_append, List.contains_append, Bool.or_eq_false_iff] at hzero
    simp only [String.utf8ByteSize_append] at hshort
    exact ⟨by simpa using hbase, hzero.1.1, by omega⟩

/-- Slashes at the end of a path make no step. -/
theorem Path.steps_slashes {slashes : List Char} (h : ∀ c ∈ slashes, c = '/') (cs : List Char) :
    steps (String.ofList (cs ++ slashes)) = steps (String.ofList cs) := by
  induction slashes generalizing cs with
  | nil => rw [List.append_nil]
  | cons c slashes ih =>
    obtain rfl := h c (by simp)
    have hrest := ih (fun c hc => h c (by simp [hc])) []
    have hsplit : String.ofList (cs ++ '/' :: slashes) =
        String.ofList cs ++ "/" ++ String.ofList slashes := by
      refine String.toList_injective ?_
      simp
    rw [hsplit, steps_slash, ← List.nil_append slashes, hrest]
    simp [steps_empty]

theorem World.trimSlashes_eq_self {path : String} (h : endsInSlash path = false) :
    makeDir.trimSlashes path = path := by
  have hkept : Text.dropEndWhile (· == '/') path.toList = path.toList := by
    refine List.rdropWhile_eq_self_iff.mpr fun hne hlast => ?_
    rw [endsInSlash, List.getLast?_eq_some_getLast hne] at h
    simp_all
  rw [makeDir.trimSlashes, hkept]
  split
  next => rfl
  next => exact String.ofList_toList

/-- A path without the slashes at its end means the same. -/
theorem World.trimSlashes_same (path : String) :
    Path.isAbsolute (makeDir.trimSlashes path) = Path.isAbsolute path ∧
      Path.steps (makeDir.trimSlashes path) = Path.steps path := by
  have hpath : path.toList = Text.dropEndWhile (· == '/') path.toList ++
      path.toList.rtakeWhile (· == '/') := List.rdropWhile_append_rtakeWhile.symm
  have htail : ∀ c ∈ path.toList.rtakeWhile (· == '/'), c = '/' := fun c hc => by
    simpa using List.mem_rtakeWhile_imp hc
  rw [makeDir.trimSlashes]
  split
  next => exact ⟨rfl, rfl⟩
  next hne =>
    constructor
    · rw [Path.isAbsolute, Path.isAbsolute, String.toList_ofList, hpath,
        List.head?_append_of_ne_nil _ hne, ← hpath]
    · have hsteps := Path.steps_slashes htail (Text.dropEndWhile (· == '/') path.toList)
      rw [← hpath, String.ofList_toList] at hsteps
      exact hsteps.symm

end SkillAudit
