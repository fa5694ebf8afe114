import Mathlib
import SkillAudit.Hub.Client
import SkillAudit.Proofs.PercentText

/-!
Where a hub is asked for a package. The URL goes on from the hub's own by `api`, `v1`, `skills` and
the id as one more segment, and different ids have different URLs. Tabs and line breaks in an id are
lost, so this holds exactly of ids without them, and of hubs whose own path is not of two empty
segments, which are taken as none.
-/
namespace SkillAudit.Url

def segmentSet (kind : SchemeKind) : Char → Bool :=
  if kind.isSpecial then inSpecialSegmentSet else inSegmentSet

/-- A text without its tabs and line breaks. -/
def unbroken (text : String) : List Char :=
  text.toList.filter fun c => !(c == '\t' || c == '\n' || c == '\r')

def written (kind : SchemeKind) (segment : String) : String :=
  String.ofList (encode (segmentSet kind) (unbroken segment))

def rooted (path : List String) : List String := if path = [""] then [] else path

theorem segmentSet_percent (kind : SchemeKind) : segmentSet kind '%' = true := by
  cases kind <;> decide

theorem segmentSet_dot (kind : SchemeKind) : segmentSet kind '.' = false := by
  cases kind <;> decide

theorem isDot_written {kind : SchemeKind} {segment : String} :
    isDot (written kind segment).toList = true ↔ unbroken segment = ['.'] := by
  rw [written, String.toList_ofList]
  exact isDot_encode (segmentSet_percent kind) (segmentSet_dot kind) _

theorem isDoubleDot_written {kind : SchemeKind} {segment : String} :
    isDoubleDot (written kind segment).toList = true ↔ unbroken segment = ['.', '.'] := by
  rw [written, String.toList_ofList]
  exact isDoubleDot_encode (segmentSet_percent kind) (segmentSet_dot kind) _

theorem rooted_concat (path : List String) {s : String} (hs : s ≠ "") :
    rooted (path ++ [s]) = path ++ [s] := by
  unfold rooted
  split
  next h =>
    rw [List.append_eq_singleton_iff] at h
    simp [hs] at h
  next => rfl

/-! One segment more. -/

/-- A path as a file's URL has it, which does not begin with an empty segment. -/
def Begins (kind : SchemeKind) (path : List String) : Prop :=
  kind = .file → path.head? ≠ some ""

theorem begins_append_iff {kind : SchemeKind} {path : List String} (hne : path ≠ [])
    (rest : List String) : Begins kind (path ++ rest) ↔ Begins kind path := by
  unfold Begins
  rw [List.head?_append_of_ne_nil _ hne]

theorem normalFilePath_eq_self {path : List (List Char)} (hne : path ≠ [])
    (h : path.head? ≠ some []) : normalFilePath path = path := by
  cases path with
  | nil => exact absurd rfl hne
  | cons s path =>
    have hs : s.isEmpty = false := by simpa using h
    simp [normalFilePath, hs]

theorem finish_eq {kind : SchemeKind} {path : List String} (hne : path ≠ []) (h : Begins kind path) :
    (if kind == .file then normalFilePath (path.map String.toList)
      else path.map String.toList).map String.ofList = path := by
  have hself : (path.map String.toList).map String.ofList = path := by simp [Function.comp_def]
  split
  next hfile =>
    have hhead : (path.map String.toList).head? ≠ some [] := by
      intro heq
      rw [List.head?_map] at heq
      obtain ⟨s, hs, hempty⟩ := Option.map_eq_some_iff.mp heq
      exact h (by simpa using hfile) (by rw [hs, String.toList_eq_nil_iff.mp hempty])
    rw [normalFilePath_eq_self (by simpa using hne) hhead, hself]
  next => exact hself

section Push
variable {kind : SchemeKind} {path : List String} {segment : String} (hone : segment ≠ ".")
  (htwo : segment ≠ "..")
include hone htwo

theorem pushSegment_eq : pushSegment kind path segment =
    (if kind == .file then normalFilePath
        (addSegment kind ((rooted path).map String.toList) (written kind segment).toList true)
      else addSegment kind ((rooted path).map String.toList) (written kind segment).toList true).map
        String.ofList := by
  have hpath : (if path == [""] then [] else path.map String.toList) =
      (rooted path).map String.toList := by
    unfold rooted
    by_cases h : path = [""]
    · simp [h]
    · simp [h]
  have hkept : segment ≠ "." ∧ segment ≠ ".." := ⟨hone, htwo⟩
  unfold pushSegment
  rw [if_neg (by simpa using hkept)]
  simp only [hpath, written, segmentSet, unbroken, String.toList_ofList]

/-- A segment that means no dots is added. -/
theorem pushSegment_named (hdot : unbroken segment ≠ ['.']) (hdots : unbroken segment ≠ ['.', '.'])
    (hbegins : Begins kind (rooted path ++ [written kind segment])) :
    pushSegment kind path segment = rooted path ++ [written kind segment] := by
  have hadd : addSegment kind ((rooted path).map String.toList) (written kind segment).toList true =
      (rooted path ++ [written kind segment]).map String.toList := by
    rw [addSegment, if_neg (mt isDoubleDot_written.mp hdots), if_neg (mt isDot_written.mp hdot),
      List.map_append, List.map_singleton]
  rw [pushSegment_eq hone htwo, hadd, finish_eq (by simp) hbegins]

theorem pushSegment_dot (hdot : unbroken segment = ['.']) (hne : rooted path ≠ [])
    (hbegins : Begins kind (rooted path)) :
    pushSegment kind path segment = rooted path ++ [""] := by
  have hdots : unbroken segment ≠ ['.', '.'] := by simp [hdot]
  have hadd : addSegment kind ((rooted path).map String.toList) (written kind segment).toList true =
      (rooted path ++ [""]).map String.toList := by
    rw [addSegment, if_neg (mt isDoubleDot_written.mp hdots), if_pos (isDot_written.mpr hdot),
      List.map_append]
    rfl
  rw [pushSegment_eq hone htwo, hadd, finish_eq (by simp) ((begins_append_iff hne _).mpr hbegins)]

/-- One that means two dots takes the segment before it away. -/
theorem pushSegment_dots {front : List String} {first last : String}
    (hdots : unbroken segment = ['.', '.']) (hpath : rooted path = front ++ [first, last])
    (hbegins : Begins kind (front ++ [first])) :
    pushSegment kind path segment = front ++ [first, ""] := by
  have hshorten : shorten kind ((rooted path).map String.toList) =
      (front ++ [first]).map String.toList := by
    have hlong : (rooted path).map String.toList =
        (front ++ [first]).map String.toList ++ [last.toList] := by simp [hpath]
    rw [hlong]
    unfold shorten
    split
    next drive heq =>
      have hlength := congrArg List.length heq
      simp at hlength
    next => rw [List.dropLast_concat]
  have hadd : addSegment kind ((rooted path).map String.toList) (written kind segment).toList true =
      (front ++ [first, ""]).map String.toList := by
    rw [addSegment, if_pos (isDoubleDot_written.mpr hdots), hshorten]
    simp
  have hkept : Begins kind (front ++ [first, ""]) := by
    rw [List.append_cons]
    exact (begins_append_iff (by simp) _).mpr hbegins
  rw [pushSegment_eq hone htwo, hadd, finish_eq (by simp) hkept]

end Push

/-! Paths of base URLs. -/

/-- The segments of a path without an empty one at its end. -/
def trimmed (path : List String) : List String :=
  if path.getLast? = some "" then path.dropLast else path

/-- Without its empty end, a path goes on from its own segments, but for one that has only two empty
ones. -/
theorem rooted_popEmpty (path : List String) :
    rooted (popEmpty path) = if path = ["", ""] then [] else trimmed path := by
  rcases path with _ | ⟨s, _ | ⟨t, rest⟩⟩
  · rfl
  · by_cases hs : s = ""
    · simp [hs, rooted, popEmpty, trimmed]
    · simp [hs, rooted, popEmpty, trimmed]
  · have hpop : popEmpty (s :: t :: rest) = trimmed (s :: t :: rest) := by
      simp [popEmpty, trimmed]
    have hcons := List.cons_ne_nil s (t :: rest)
    rw [hpop]
    by_cases hempty : s :: t :: rest = ["", ""]
    · rw [if_pos hempty, hempty]
      decide
    · rw [if_neg hempty, rooted, if_neg]
      intro hroot
      unfold trimmed at hroot
      split at hroot
      next hlast =>
        apply hempty
        rw [List.getLast?_eq_some_getLast hcons, Option.some_inj] at hlast
        rw [← List.dropLast_concat_getLast hcons, hroot, hlast]
        rfl
      next => simp at hroot

/-- A URL of a file has no empty segment at its start, unless it is the only one. -/
def IsNormal (u : Url) : Prop :=
  schemeKind u.scheme = .file → ∀ path, u.path = .segments path → path = [""] ∨ path.head? ≠ some ""

theorem head?_normalFilePath (path : List (List Char)) :
    normalFilePath path = [[]] ∨ (normalFilePath path).head? ≠ some [] := by
  unfold normalFilePath
  split
  next => exact .inl rfl
  next heq =>
    refine .inr fun hhead => ?_
    have := List.head?_dropWhile_not List.isEmpty path
    simp [hhead] at this

theorem head?_readSegments_file (cs : List Char) :
    readSegments .file cs = [""] ∨ (readSegments .file cs).head? ≠ some "" := by
  unfold readSegments
  simp only [beq_self_eq_true, if_true]
  generalize addSegments .file [] _ = path
  obtain hroot | hhead := head?_normalFilePath path
  · left
    rw [hroot]
    rfl
  · right
    intro heq
    rw [List.head?_map] at heq
    obtain ⟨s, hs, hempty⟩ := Option.map_eq_some_iff.mp heq
    rw [String.ofList_eq_empty_iff] at hempty
    exact hhead (hempty ▸ hs)

theorem path_of_readFile? {cs : List Char} {u : Url} (h : readFile? cs = some u) :
    ∃ rest, u.path = .segments (readSegments .file rest) := by
  unfold readFile? at h
  split at h
  next a b rest =>
    split at h
    next =>
      simp only at h
      split at h
      next => exact Option.some.inj h ▸ ⟨_, rfl⟩
      next =>
        -- The host may be dropped, and the path is the same either way.
        obtain ⟨name, -, h⟩ := Option.bind_eq_some_iff.mp h
        split at h
        next =>
          split at h
          next => exact Option.some.inj h ▸ ⟨_, rfl⟩
          next => exact Option.some.inj h ▸ ⟨_, rfl⟩
        next => exact Option.some.inj h ▸ ⟨_, rfl⟩
    next => exact Option.some.inj h ▸ ⟨_, rfl⟩
  next => exact Option.some.inj h ▸ ⟨_, rfl⟩

theorem isNormal_of_readFile? {cs : List Char} {u : Url} (h : readFile? cs = some u) :
    IsNormal u := by
  intro _ path hpath
  obtain ⟨rest, hrest⟩ := path_of_readFile? h
  rw [hpath] at hrest
  rw [UrlPath.segments.inj hrest]
  exact head?_readSegments_file rest

theorem scheme_of_readPlace? {scheme : String} {kind : SchemeKind} {cs : List Char} {u : Url}
    (h : readPlace? scheme kind cs = some u) : u.scheme = scheme := by
  obtain ⟨authority, -, rfl⟩ := Option.map_eq_some_iff.mp h
  rfl

theorem isNormal_of_parse? {text : String} {u : Url} (h : parse? text = some u) : IsNormal u := by
  unfold parse? at h
  obtain ⟨⟨scheme, rest⟩, -, h⟩ := Option.bind_eq_some_iff.mp h
  have hother (hscheme : u.scheme = scheme) (hkind : schemeKind scheme ≠ .file) : IsNormal u :=
    fun hfile => absurd (hscheme ▸ hfile) hkind
  simp only at h
  split at h
  next hkind => exact isNormal_of_readFile? h
  next hkind => exact hother (scheme_of_readPlace? h) (by simp [hkind])
  next hkind =>
    have hkind : schemeKind scheme ≠ .file := by simp [hkind]
    split at h
    next => exact hother (scheme_of_readPlace? h) hkind
    next =>
      obtain rfl := Option.some.inj h
      exact hother rfl hkind
    next =>
      obtain rfl := Option.some.inj h
      exact hother rfl hkind

theorem IsNormal.begins {u : Url} {path : List String} (h : IsNormal u)
    (hpath : u.path = .segments path) :
    Begins (schemeKind u.scheme) (rooted (popEmpty path)) := by
  intro hfile hhead
  rw [rooted_popEmpty] at hhead
  split at hhead
  next => simp at hhead
  next =>
    obtain rfl | hfirst := h hfile path hpath
    · simp [trimmed] at hhead
    · apply hfirst
      unfold trimmed at hhead
      split at hhead
      next =>
        rw [List.head?_dropLast] at hhead
        split at hhead
        next => exact hhead
        next => simp at hhead
      next => exact hhead

/-! The endpoint and the id. -/

/-- The segments that a hub's URL goes on by, before the id. -/
def endpoint : List String := ["api", "v1", "skills"]

theorem pushSegment_endpoint {kind : SchemeKind} {path : List String} {s : String}
    (hs : s ∈ endpoint) (hbegins : Begins kind (rooted path)) :
    pushSegment kind path s = rooted path ++ [s] ∧ Begins kind (rooted path ++ [s]) := by
  have hwritten : ∀ s ∈ endpoint, written kind s = s := by cases kind <;> decide
  have hplain : ∀ s ∈ endpoint, s ≠ "" ∧ s ≠ "." ∧ s ≠ ".." ∧ unbroken s ≠ ['.'] ∧
      unbroken s ≠ ['.', '.'] := by decide
  obtain ⟨hempty, hone, htwo, hdot, hdots⟩ := hplain s hs
  have hlonger : Begins kind (rooted path ++ [s]) := by
    by_cases hne : rooted path = []
    · simpa [hne, Begins] using fun _ => hempty
    · exact (begins_append_iff hne _).mpr hbegins
  have hpush (h : Begins kind (rooted path ++ [written kind s])) :=
    pushSegment_named hone htwo hdot hdots h
  rw [hwritten s hs] at hpush
  exact ⟨hpush hlonger, hlonger⟩

theorem foldl_endpoint {kind : SchemeKind} {path names : List String}
    (hnames : ∀ s ∈ names, s ∈ endpoint) (hbegins : Begins kind (rooted path)) :
    rooted (names.foldl (pushSegment kind) path) = rooted path ++ names ∧
      Begins kind (rooted path ++ names) := by
  induction names generalizing path with
  | nil => simpa using hbegins
  | cons s names ih =>
    have hs : s ∈ endpoint := hnames s List.mem_cons_self
    have hne : s ≠ "" := by
      rintro rfl
      simp [endpoint] at hs
    obtain ⟨hpush, hlonger⟩ := pushSegment_endpoint hs hbegins
    have hrooted : rooted (pushSegment kind path s) = rooted path ++ [s] := by
      rw [hpush, rooted_concat _ hne]
    have hrest := ih (fun t ht => hnames t (List.mem_cons_of_mem s ht)) (hrooted ▸ hlonger)
    rwa [hrooted, List.append_assoc] at hrest

def asked (kind : SchemeKind) (id : String) : List String :=
  if unbroken id = ['.', '.'] then ["api", "v1", ""]
  else endpoint ++ [if unbroken id = ['.'] then "" else written kind id]

theorem isId_iff {id : String} : Hub.isId id = true ↔
    (id ≠ "" ∧ id ≠ "." ∧ id ≠ "..") ∧ '/' ∉ id.toList ∧ '\\' ∉ id.toList := by
  have hchars : (!id.toList.any fun c => c == '/' || c == '\\') = true ↔
      '/' ∉ id.toList ∧ '\\' ∉ id.toList := by
    simp only [Bool.not_eq_true', List.any_eq_false, Bool.or_eq_true, beq_iff_eq, not_or]
    exact ⟨fun h => ⟨fun hc => (h _ hc).1 rfl, fun hc => (h _ hc).2 rfl⟩,
      fun h c hc => ⟨fun heq => h.1 (heq ▸ hc), fun heq => h.2 (heq ▸ hc)⟩⟩
  simp only [Hub.isId, Bool.and_eq_true, bne_iff_ne, hchars, and_assoc]

theorem pushSegment_id {kind : SchemeKind} {path front : List String} {id : String}
    (hid : Hub.isId id = true) (hpath : rooted path = front ++ endpoint)
    (hbegins : Begins kind (front ++ endpoint)) :
    pushSegment kind path id = front ++ asked kind id := by
  obtain ⟨⟨-, hone, htwo⟩, -⟩ := isId_iff.mp hid
  have hne : front ++ endpoint ≠ [] := by simp [endpoint]
  unfold asked
  split
  next hdots =>
    have hfront : Begins kind (front ++ ["api"] ++ ["v1"]) := by
      rw [← begins_append_iff (by simp) ["skills"]]
      simpa [endpoint] using hbegins
    have hlong : rooted path = front ++ ["api"] ++ ["v1", "skills"] := by simp [hpath, endpoint]
    rw [pushSegment_dots hone htwo hdots hlong hfront, List.append_assoc]
    rfl
  next hdots =>
    rw [← List.append_assoc, ← hpath]
    split
    next hdot => exact pushSegment_dot hone htwo hdot (hpath ▸ hne) (hpath ▸ hbegins)
    next hdot =>
      apply pushSegment_named hone htwo hdot hdots
      rw [hpath]
      exact (begins_append_iff hne _).mpr hbegins

theorem extend_eq {u : Url} {path : List String} {id : String} (hnormal : IsNormal u)
    (hpath : u.path = .segments path) (hid : Hub.isId id = true) :
    u.extend ["api", "v1", "skills", id] = { u with
      path := .segments (rooted (popEmpty path) ++ asked (schemeKind u.scheme) id) } := by
  obtain ⟨hfold, hbegins⟩ := foldl_endpoint (fun _ hs => hs) (hnormal.begins hpath)
  have hids : ["api", "v1", "skills", id] = endpoint ++ [id] := rfl
  unfold extend
  rw [hpath, hids]
  simp only [List.foldl_append, List.foldl_cons, List.foldl_nil]
  rw [pushSegment_id hid hfold hbegins]

/-- A segment that is one wherever it stands, and that stands for an id. -/
structure Spells (kind : SchemeKind) (segment id : String) : Prop where
  nonempty : segment ≠ ""
  whole : ∀ c ∈ segment.toList, isSlash kind c = false ∧ endsPath c = false
  dot : isDot segment.toList = false
  dots : isDoubleDot segment.toList = false
  decodes : decodeBytes segment.toList .empty = id.toUTF8

theorem unbroken_of_spells {kind : SchemeKind} {id : String} (h : Spells kind (written kind id) id) :
    unbroken id = id.toList := by
  have hdecodes := h.decodes
  rw [written, String.toList_ofList] at hdecodes
  exact eq_of_decodeBytes_encode (segmentSet_percent kind) hdecodes

theorem segmentSet_of_ends {kind : SchemeKind} {c : Char}
    (h : isSlash kind c = true ∨ endsPath c = true) :
    c ∈ ['/', '\\', '?', '#'] ∧ segmentSet kind c = true := by
  simp only [isSlash, endsPath, Bool.or_eq_true, Bool.and_eq_true, beq_iff_eq] at h
  rcases h with (rfl | ⟨rfl, hspecial⟩) | rfl | rfl
  · cases kind <;> decide
  · refine ⟨by decide, ?_⟩
    rw [segmentSet, if_pos hspecial]
    decide
  · cases kind <;> decide
  · cases kind <;> decide

theorem ends_not_mem_encodeByte {c : Char} (hc : c ∈ ['/', '\\', '?', '#']) (b : UInt8) :
    c ∉ encodeByte b := by
  have hdigit : ∀ n < 16, upperHex n ∉ ['/', '\\', '?', '#'] := by decide
  have hlt : b.toNat < 256 := b.toNat_lt
  intro hmem
  simp only [encodeByte, List.mem_cons, List.not_mem_nil, or_false] at hmem
  rcases hmem with rfl | rfl | rfl
  · simp at hc
  · exact hdigit _ (by omega) hc
  · exact hdigit _ (by omega) hc

theorem written_whole {kind : SchemeKind} {segment : String} {c : Char}
    (hc : c ∈ (written kind segment).toList) : isSlash kind c = false ∧ endsPath c = false := by
  rw [written, String.toList_ofList] at hc
  have hkept : ¬(isSlash kind c = true ∨ endsPath c = true) := by
    intro hends
    obtain ⟨hmem, hset⟩ := segmentSet_of_ends hends
    exact not_mem_encode hset (ends_not_mem_encodeByte hmem) hc
  simpa using hkept

theorem spells_written {kind : SchemeKind} {id : String} (hid : Hub.isId id = true)
    (hunbroken : unbroken id = id.toList) : Spells kind (written kind id) id := by
  obtain ⟨⟨hempty, hone, htwo⟩, -⟩ := isId_iff.mp hid
  have hdecodes : decodeBytes (written kind id).toList .empty = id.toUTF8 := by
    rw [written, String.toList_ofList, decodeBytes_encode (segmentSet_percent kind), hunbroken,
      String.ofList_toList, ByteArray.empty_append]
  refine ⟨?_, fun c hc => written_whole hc, ?_, ?_, hdecodes⟩
  · intro hnone
    rw [hnone, String.toList_empty, decodeBytes] at hdecodes
    exact hempty (String.toByteArray_inj.mp hdecodes.symm)
  · rw [Bool.eq_false_iff, ne_eq, isDot_written, hunbroken]
    exact fun h => hone (String.toList_inj.mp h)
  · rw [Bool.eq_false_iff, ne_eq, isDoubleDot_written, hunbroken]
    exact fun h => htwo (String.toList_inj.mp h)

/-! The text. -/

/-- The text of a path ends with its last segment, and the rest of it does not depend on that. -/
theorem pathText_concat (u : Url) {front : List String} (hne : front ≠ []) :
    ∃ lead, ∀ s, pathText { u with path := .segments (front ++ [s]) } = lead ++ s := by
  refine ⟨(if u.authority.isNone && front.head? == some "" then "/." else "") ++
    (String.join (front.map ("/" ++ ·)) ++ "/"), fun s => ?_⟩
  have hlength : (front ++ [s]).length > 1 := by
    have hpos := List.length_pos_of_ne_nil hne
    rw [List.length_append, List.length_singleton]
    omega
  have hjoin : String.join ((front ++ [s]).map ("/" ++ ·)) =
      String.join (front.map ("/" ++ ·)) ++ "/" ++ s := by
    simp [String.join_append, String.append_assoc]
  unfold pathText
  simp only [List.head?_append_of_ne_nil _ hne, hlength, hjoin, decide_true, Bool.and_true]
  split
  next => simp only [String.append_assoc]
  next => rw [String.empty_append]

theorem eq_of_text_eq {u : Url} {front : List String} (hne : front ≠ []) {s t : String}
    (h : text { u with path := .segments (front ++ [s]) } =
      text { u with path := .segments (front ++ [t]) }) : s = t := by
  obtain ⟨lead, hlead⟩ := pathText_concat u hne
  unfold text at h
  rw [hlead, hlead] at h
  simpa only [String.append_left_inj, String.append_right_inj] using h

/-- A URL asks below a base for an id: its path is the base's, without an empty end, then the
endpoint and one segment that spells the id, and all else is the base's. -/
def Asks (base : Url) (id : String) (url : Url) : Prop :=
  ∃ front last, base.path = .segments front ∧
    url = { base with path := .segments (trimmed front ++ endpoint ++ [last]) } ∧
    Spells (schemeKind base.scheme) last id

theorem unbroken_eq_iff {id : String} :
    unbroken id = id.toList ↔ ∀ c ∈ ['\t', '\n', '\r'], c ∉ id.toList := by
  unfold unbroken
  simp only [List.filter_eq_self, Bool.not_eq_true', Bool.or_eq_false_iff, beq_eq_false_iff_ne]
  constructor
  · intro h c hbreak hc
    obtain ⟨⟨htab, hfeed⟩, hreturn⟩ := h c hc
    simp [htab, hfeed, hreturn] at hbreak
  · intro h c hc
    refine ⟨⟨?_, ?_⟩, ?_⟩ <;> rintro rfl <;> exact h _ (by simp) hc

end SkillAudit.Url

namespace SkillAudit.Hub
open Url

theorem ofBase_ok {base : String} {retry : Retry} {hub : Hub} (h : ofBase base retry = .ok hub) :
    IsNormal hub.base ∧ ∃ path, hub.base.path = .segments path := by
  unfold ofBase at h
  split at h
  next => simp at h
  next url hparse =>
    split at h
    next hbase =>
      obtain rfl := Except.ok.inj h
      refine ⟨isNormal_of_parse? hparse, ?_⟩
      unfold canBeBase at hbase
      split at hbase
      next path hpath => exact ⟨path, hpath⟩
      next => simp at hbase
    next => simp at h

theorem packageUrl_eq {hub : Hub} {path : List String} {id : String} {url : Url}
    (hnormal : IsNormal hub.base) (hpath : hub.base.path = .segments path)
    (h : hub.packageUrl id = .ok url) :
    isId id = true ∧ url = { hub.base with
      path := .segments (rooted (popEmpty path) ++ asked (schemeKind hub.base.scheme) id) } := by
  unfold packageUrl at h
  split at h
  next hid => exact ⟨hid, (Except.ok.inj h).symm.trans (extend_eq hnormal hpath hid)⟩
  next => simp at h

theorem asked_of_unbroken {kind : SchemeKind} {id : String} (hid : isId id = true)
    (hunbroken : unbroken id = id.toList) : asked kind id = endpoint ++ [written kind id] := by
  obtain ⟨⟨-, hone, htwo⟩, -⟩ := isId_iff.mp hid
  have hdot : id.toList ≠ ['.'] := fun h => hone (String.toList_inj.mp h)
  have hdots : id.toList ≠ ['.', '.'] := fun h => htwo (String.toList_inj.mp h)
  rw [asked, hunbroken, if_neg hdots, if_neg hdot]

/-- A URL asks for its id exactly when no character of the id was lost, and no segment of the
hub's path. -/
theorem asks_iff {hub : Hub} {path : List String} {id : String} {url : Url}
    (hnormal : IsNormal hub.base) (hpath : hub.base.path = .segments path)
    (h : hub.packageUrl id = .ok url) :
    Asks hub.base id url ↔ unbroken id = id.toList ∧ path ≠ ["", ""] := by
  obtain ⟨hid, rfl⟩ := packageUrl_eq hnormal hpath h
  rw [rooted_popEmpty]
  constructor
  · rintro ⟨front, last, hfront, hurl, hspells⟩
    obtain rfl : path = front := UrlPath.segments.inj (hpath.symm.trans hfront)
    have hsegments := UrlPath.segments.inj (congrArg Url.path hurl)
    have hne := hspells.nonempty
    unfold asked at hsegments
    by_cases hdots : unbroken id = ['.', '.']
    · have hlast := congrArg List.getLast? hsegments
      rw [if_pos hdots] at hlast
      simp [hne.symm] at hlast
    · rw [if_neg hdots, ← List.append_assoc, List.append_singleton_inj,
        List.append_left_inj] at hsegments
      obtain ⟨hkept, hlast⟩ := hsegments
      have hwritten : written (schemeKind hub.base.scheme) id = last := by
        rw [← hlast, if_neg]
        intro hdot
        rw [if_pos hdot] at hlast
        exact hne hlast.symm
      refine ⟨unbroken_of_spells (hwritten ▸ hspells), ?_⟩
      rintro rfl
      simp [trimmed] at hkept
  · rintro ⟨hunbroken, hempty⟩
    refine ⟨path, _, hpath, ?_, spells_written hid hunbroken⟩
    rw [if_neg hempty, asked_of_unbroken hid hunbroken, List.append_assoc]

theorem id_of_text_eq {hub : Hub} {path : List String} {id id' : String} {url url' : Url}
    (hnormal : IsNormal hub.base) (hpath : hub.base.path = .segments path)
    (h : hub.packageUrl id = .ok url) (h' : hub.packageUrl id' = .ok url')
    (hunbroken : unbroken id = id.toList) (hunbroken' : unbroken id' = id'.toList)
    (htext : url.text = url'.text) : id = id' := by
  obtain ⟨hid, rfl⟩ := packageUrl_eq hnormal hpath h
  obtain ⟨hid', rfl⟩ := packageUrl_eq hnormal hpath h'
  rw [asked_of_unbroken hid hunbroken, asked_of_unbroken hid' hunbroken', ← List.append_assoc,
    ← List.append_assoc] at htext
  have hwritten := eq_of_text_eq (by simp [endpoint]) htext
  have hspells : Spells _ _ id := hwritten ▸ spells_written hid hunbroken
  have hdecodes := hspells.decodes.symm.trans (spells_written hid' hunbroken').decodes
  exact String.toByteArray_inj.mp hdecodes

/-- A hub has a URL for every text that is one segment of a path. The URL asks for that text as it is,
exactly when the text has no tab or line break and the hub's own path is not of two empty segments.
Texts without tabs and line breaks share no URL. -/
theorem packageUrl_asks_iff {base : String} {retry : Retry} {hub : Hub}
    (hbase : ofBase base retry = .ok hub) :
    (∀ id, (∃ url, hub.packageUrl id = .ok url) ↔
      (id ≠ "" ∧ id ≠ "." ∧ id ≠ "..") ∧ '/' ∉ id.toList ∧ '\\' ∉ id.toList) ∧
    (∀ id url, hub.packageUrl id = .ok url →
      (Asks hub.base id url ↔
        (∀ c ∈ ['\t', '\n', '\r'], c ∉ id.toList) ∧ hub.base.path ≠ .segments ["", ""])) ∧
    ∀ id id' url url', hub.packageUrl id = .ok url → hub.packageUrl id' = .ok url' →
      (∀ c ∈ ['\t', '\n', '\r'], c ∉ id.toList ∧ c ∉ id'.toList) → url.text = url'.text →
        id = id' := by
  obtain ⟨hnormal, path, hpath⟩ := ofBase_ok hbase
  refine ⟨fun id => ?_, fun id url h => ?_, fun id id' url url' h h' hbreaks htext => ?_⟩
  · rw [← isId_iff, packageUrl]
    split
    next hid => simp [hid]
    next hid => simp [hid]
  · rw [asks_iff hnormal hpath h, unbroken_eq_iff, hpath, ne_eq, ne_eq, UrlPath.segments.injEq]
  · exact id_of_text_eq hnormal hpath h h' (unbroken_eq_iff.mpr fun c hc => (hbreaks c hc).1)
      (unbroken_eq_iff.mpr fun c hc => (hbreaks c hc).2) htext

def mirror : Hub where
  base := ⟨"ftp", some ⟨"", none, "h", none⟩, .segments ["m", "", ""], none, none⟩

theorem ofBase_mirror : ofBase "ftp://h/m//" {} = .ok mirror := by
  have hparse : parse? "ftp://h/m//" = some mirror.base := by decide +kernel
  rw [ofBase, hparse]
  rfl

theorem packageUrl_asks_iff_mirror :
    ofBase "ftp://h/m//" {} = .ok mirror ∧
      ∃ url, mirror.packageUrl "%2E%2E" = .ok url ∧ Asks mirror.base "%2E%2E" url := by
  obtain ⟨haccepts, hasks, -⟩ := packageUrl_asks_iff ofBase_mirror
  obtain ⟨url, hurl⟩ := (haccepts "%2E%2E").mpr (by decide)
  have hasked : Asks mirror.base "%2E%2E" url :=
    (hasks _ url hurl).mpr ⟨unbroken_eq_iff.mp (by decide), by simp [mirror]⟩
  exact ⟨ofBase_mirror, url, hurl, hasked⟩

theorem tab_between_dots_leaves_endpoint :
    ∃ url, mirror.packageUrl ".\t." = .ok url ∧ url.text = "ftp://h/m//api/v1/" ∧
      ¬ Asks mirror.base ".\t." url := by
  refine ⟨⟨"ftp", some ⟨"", none, "h", none⟩, .segments ["m", "", "api", "v1", ""], none, none⟩,
    rfl, by decide, fun hasked => ?_⟩
  obtain ⟨hnormal, -⟩ := ofBase_ok ofBase_mirror
  have hkept := ((asks_iff hnormal rfl rfl).mp hasked).1
  exact absurd hkept (by decide)

end SkillAudit.Hub
