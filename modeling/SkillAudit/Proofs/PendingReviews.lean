import Mathlib
import SkillAudit.Proofs.StandingFile
import SkillAudit.Proofs.StoredDocuments

/-!
The file of pending reviews. What is read from it can be written again; and once it stands, a review
can always be recorded or taken, which leaves the reviews of other names as they are.
-/
namespace SkillAudit

/-! Numbers that have been read fit in the words of a document. -/

namespace Json
variable {α : Type} {decode : Decoder α} {j : Json}

theorem lt_of_asNat {n : Nat} (h : asNat j = some n) : n < 2 ^ 64 := by
  unfold asNat asNatBelow at h
  split at h
  next m =>
    split at h
    next hlt =>
      obtain rfl := Option.some.inj h
      exact hlt
    next => cases h
  next => cases h

theorem fits_of_asInt {i : Int} (h : asInt j = some i) : Fits i := by
  unfold asInt at h
  split at h
  next n =>
    split at h
    next hlt =>
      obtain rfl := Option.some.inj h
      exact ⟨by omega, by omega⟩
    next => cases h
  next n =>
    split at h
    next hbound =>
      obtain rfl := Option.some.inj h
      simp only [Bool.and_eq_true, decide_eq_true_eq] at hbound
      exact ⟨by omega, by omega⟩
    next => cases h
  next => cases h

theorem exists_of_mapM {β : Type} {f : α → Option β} {xs : List α} {ys : List β}
    (h : xs.mapM f = some ys) : ∀ y ∈ ys, ∃ x ∈ xs, f x = some y := by
  induction xs generalizing ys with
  | nil =>
    obtain rfl : ys = [] := by simpa using h.symm
    simp
  | cons x xs ih =>
    simp only [List.mapM_cons, Option.bind_eq_bind, Option.bind_eq_some_iff, Option.pure_def,
      Option.some.injEq] at h
    obtain ⟨y, hy, rest, hrest, rfl⟩ := h
    refine List.forall_mem_cons.mpr ⟨⟨x, by simp, hy⟩, fun z hz => ?_⟩
    obtain ⟨x', hx', hz⟩ := ih hrest z hz
    exact ⟨x', by simp [hx'], hz⟩

theorem exists_of_asList {xs : List α} (h : asList decode j = some xs) :
    ∀ x ∈ xs, ∃ item, decode item = some x := by
  unfold asList at h
  split at h
  next items =>
    intro x hx
    obtain ⟨item, -, hitem⟩ := exists_of_mapM h x hx
    exact ⟨item, hitem⟩
  next => cases h

theorem exists_of_asDict {d : Dict α} (h : asDict decode j = some d) :
    d.Sorted ∧ ∀ x ∈ d.values, ∃ item, decode item = some x := by
  obtain ⟨pairs, hpairs, rfl⟩ := Option.map_eq_some_iff.mp h
  obtain ⟨hsorted, hvalues⟩ := Dict.sorted_ofList pairs
  refine ⟨hsorted, fun x hx => ?_⟩
  obtain ⟨pair, hpair, rfl⟩ := List.mem_map.mp (hvalues x hx)
  unfold asMap at hpairs
  split at hpairs
  next members =>
    obtain ⟨⟨key, item⟩, -, hitem⟩ := exists_of_mapM hpairs pair hpair
    simp only [Option.bind_eq_bind, Option.bind_eq_some_iff, Option.pure_def,
      Option.some.injEq] at hitem
    obtain ⟨-, -, value, hvalue, rfl⟩ := hitem
    exact ⟨item, hvalue⟩
  next => cases hpairs

namespace Record
variable {r : Record} {name : String}

theorem exists_of_required {a : α} (h : r.required name decode = some a) :
    ∃ item, decode item = some a := by
  obtain ⟨item, -, hitem⟩ := Option.bind_eq_some_iff.mp h
  exact ⟨item, hitem⟩

theorem exists_of_optional {a : α} (h : r.optional name decode = some (some a)) :
    ∃ item, decode item = some a := by
  unfold optional withDefault at h
  split at h
  next => cases h
  next item _ =>
    unfold asOption at h
    split at h
    next => cases h
    next =>
      obtain ⟨b, hb, hab⟩ := Option.map_eq_some_iff.mp h
      obtain rfl := Option.some.inj hab
      exact ⟨item, hb⟩

end Record
end Json

theorem Finding.fits_of_ofJson {j : Json} {f : Finding} (h : Finding.ofJson j = some f) : f.Fits := by
  simp only [Finding.ofJson, Option.bind_eq_bind, Option.bind_eq_some_iff, Option.pure_def,
    Option.some.injEq] at h
  obtain ⟨r, -, _, -, _, -, _, -, _, -, line, hline, _, -, _, -, rfl⟩ := h
  obtain ⟨item, hitem⟩ := Json.Record.exists_of_required hline
  exact Json.lt_of_asNat hitem

theorem SensitiveChange.fits_of_ofJson {j : Json} {c : SensitiveChange}
    (h : SensitiveChange.ofJson j = some c) : c.Fits := by
  simp only [SensitiveChange.ofJson, Option.bind_eq_bind, Option.bind_eq_some_iff, Option.pure_def,
    Option.some.injEq] at h
  obtain ⟨r, -, _, -, _, -, line, hline, rfl⟩ := h
  obtain ⟨item, hitem⟩ := Json.Record.exists_of_required hline
  exact Json.lt_of_asNat hitem

theorem Finding.fits_of_field {r : Json.Record} {name : String} {fs : List Finding}
    (h : r.required name (Json.asList Finding.ofJson) = some fs) : ∀ f ∈ fs, f.Fits := by
  obtain ⟨items, hitems⟩ := Json.Record.exists_of_required h
  intro f hf
  obtain ⟨item, hitem⟩ := Json.exists_of_asList hitems f hf
  exact Finding.fits_of_ofJson hitem

theorem Diff.fits_of_ofJson {j : Json} {d : Diff} (h : Diff.ofJson j = some d) : d.Fits := by
  simp only [Diff.ofJson, Option.bind_eq_bind, Option.bind_eq_some_iff, Option.pure_def,
    Option.some.injEq] at h
  obtain ⟨r, -, _, -, _, -, _, -, _, -, new, hnew, removed, hremoved, delta, hdelta, changes,
    hchanges, _, -, rfl⟩ := h
  refine ⟨Finding.fits_of_field hnew, Finding.fits_of_field hremoved, ?_, fun c hc => ?_⟩
  · obtain ⟨item, hitem⟩ := Json.Record.exists_of_required hdelta
    exact Json.fits_of_asInt hitem
  · obtain ⟨items, hitems⟩ := Json.Record.exists_of_required hchanges
    obtain ⟨item, hitem⟩ := Json.exists_of_asList hitems c hc
    exact SensitiveChange.fits_of_ofJson hitem

theorem Decision.fits_of_ofJson {j : Json} {d : Decision} (h : Decision.ofJson j = some d) :
    d.Fits := by
  obtain ⟨r, -, h⟩ := Option.bind_eq_some_iff.mp h
  obtain ⟨_, -, h⟩ := Option.bind_eq_some_iff.mp h
  obtain ⟨_, -, h⟩ := Option.bind_eq_some_iff.mp h
  obtain ⟨_, -, h⟩ := Option.bind_eq_some_iff.mp h
  obtain ⟨_, -, h⟩ := Option.bind_eq_some_iff.mp h
  obtain ⟨_, -, h⟩ := Option.bind_eq_some_iff.mp h
  obtain ⟨findings, hfindings, h⟩ := Option.bind_eq_some_iff.mp h
  obtain ⟨flow, hflow, h⟩ := Option.bind_eq_some_iff.mp h
  obtain ⟨_, -, h⟩ := Option.bind_eq_some_iff.mp h
  obtain ⟨_, -, h⟩ := Option.bind_eq_some_iff.mp h
  obtain ⟨_, -, h⟩ := Option.bind_eq_some_iff.mp h
  obtain ⟨_, -, h⟩ := Option.bind_eq_some_iff.mp h
  obtain ⟨diff, hdiff, h⟩ := Option.bind_eq_some_iff.mp h
  obtain rfl := Option.some.inj h
  refine ⟨Finding.fits_of_field hfindings, Finding.fits_of_field hflow, fun x hx => ?_⟩
  obtain rfl : diff = some x := hx
  obtain ⟨item, hitem⟩ := Json.Record.exists_of_optional hdiff
  exact Diff.fits_of_ofJson hitem

theorem PendingReview.fits_of_ofJson {j : Json} {r : PendingReview}
    (h : PendingReview.ofJson j = some r) : r.decision.Fits := by
  simp only [PendingReview.ofJson, Option.bind_eq_bind, Option.bind_eq_some_iff, Option.pure_def,
    Option.some.injEq] at h
  obtain ⟨record, -, d, hd, _, -, _, -, _, -, rfl⟩ := h
  obtain ⟨item, hitem⟩ := Json.Record.exists_of_required hd
  exact Decision.fits_of_ofJson hitem

namespace Pending

/-- Reviews that a file can hold: they are sorted by name, and their numbers fit. -/
structure Storable (reviews : Dict PendingReview) : Prop where
  sorted : reviews.Sorted
  fits : ∀ r ∈ reviews.values, r.decision.Fits

section Storable
variable {reviews : Dict PendingReview}

theorem storable_load (w : World) (path : String) : Storable (load w path) := by
  have hempty : Storable [] := ⟨List.Pairwise.nil, by simp [Dict.values]⟩
  unfold load
  cases hread : Store.readJson? w path reviews? with
  | none => exact hempty
  | some reviews =>
    obtain ⟨j, -, hdecode⟩ := Option.bind_eq_some_iff.mp hread
    obtain ⟨record, -, hfield⟩ := Option.bind_eq_some_iff.mp hdecode
    unfold Json.Record.withDefault at hfield
    split at hfield
    next =>
      obtain rfl := Option.some.inj hfield
      exact hempty
    next =>
      obtain ⟨hsorted, hvalues⟩ := Json.exists_of_asDict hfield
      refine ⟨hsorted, fun r hr => ?_⟩
      obtain ⟨item, hitem⟩ := hvalues r hr
      exact PendingReview.fits_of_ofJson hitem

theorem Storable.insert (h : Storable reviews) (name : String) {review : PendingReview}
    (hfits : review.decision.Fits) : Storable (reviews.insert name review) := by
  refine ⟨h.sorted.insert name review, fun r hr => ?_⟩
  rcases Dict.mem_values_insert hr with rfl | hr
  · exact hfits
  · exact h.fits r hr

theorem Storable.erase (h : Storable reviews) (name : String) : Storable (reviews.erase name) := by
  refine ⟨h.sorted.filter _, fun r hr => h.fits r ?_⟩
  obtain ⟨x, hx, rfl⟩ := List.mem_map.mp hr
  exact List.mem_map.mpr ⟨x, (List.mem_filter.mp hx).1, rfl⟩

end Storable

def bytes (reviews : Dict PendingReview) : ByteArray := (Store.jsonText (documentJson reviews)).toUTF8

structure Stored (w : World) (path : String) (r : Route) (reviews : Dict PendingReview) : Prop where
  standing : Store.Standing w path r (bytes reviews)
  storable : Storable reviews

section Stored
variable {w : World} {path : String} {r : Route} {reviews : Dict PendingReview}

theorem Stored.load (h : Stored w path r reviews) : Pending.load w path = reviews :=
  load_of_read? h.storable.sorted h.storable.fits (Store.read?_of_holds h.standing.holds)

theorem Stored.put (h : Stored w path r reviews) (hlock : r.place ∉ w.onWay (Store.lockPath path))
    {new : Dict PendingReview} (hnew : Storable new) :
    Stored (w.put r.place (.file (bytes new))) path r new :=
  ⟨h.standing.put hlock _, hnew⟩

theorem Stored.record_eq (h : Stored w path r reviews) (now : Instant) (d : Decision) (root : String)
    (source : Option String) : record path now d root source w =
      (.ok (), w.put r.place (.file (bytes (reviews.insert d.name ⟨d, root, source, now⟩)))) := by
  rw [record, Act.bind_of_ok h.standing.lock_eq, Act.bind_of_ok (x := get) rfl]
  simp only [h.load]
  exact h.standing.write_eq _

theorem Stored.take_eq (h : Stored w path r reviews) {name : String} {review : PendingReview}
    (hget : reviews.get? name = some review) : take path name w =
      (.ok (some review), w.put r.place (.file (bytes (reviews.erase name)))) := by
  rw [take, Act.bind_of_ok h.standing.lock_eq, Act.bind_of_ok (x := get) rfl]
  simp only [h.load, hget]
  exact Act.bind_of_ok (h.standing.write_eq _)

theorem Stored.take_none (h : Stored w path r reviews) {name : String}
    (hget : reviews.get? name = none) : take path name w = (.ok none, w) := by
  rw [take, Act.bind_of_ok h.standing.lock_eq, Act.bind_of_ok (x := get) rfl]
  simp only [h.load, hget]
  rfl

theorem stored_of_record {v : World} {now : Instant} {d : Decision} {root : String}
    {source : Option String} (h : record path now d root source w = (.ok (), v))
    (hr : w.route? path = some r) (hown : r.place ∉ r.links)
    (hlock : r.place ∉ w.onWay (Store.lockPath path)) (hfits : d.Fits) :
    ∃ earlier : Dict PendingReview,
      Stored v path r (earlier.insert d.name ⟨d, root, source, now⟩) := by
  obtain ⟨_, u, hlocked, h⟩ := Act.bind_ok h
  rw [Act.bind_of_ok (x := get) rfl] at h
  exact ⟨Pending.load u path, Store.standing_of_write hlocked h hr hown hlock,
    (storable_load u path).insert d.name hfits⟩

end Stored
end Pending
end SkillAudit
