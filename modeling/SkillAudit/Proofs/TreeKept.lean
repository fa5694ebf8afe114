import Mathlib
import SkillAudit.Proofs.TreeChange

/-!
File trees stay file trees. What is put into one has names that directories may hold, and a directory
to stand in, so that every further step works on a tree again.
-/
namespace SkillAudit

def Node.target? : Node → Option String
  | .link t => some t
  | _ => none

namespace Path

/-- A piece of a path has no other characters than the path. -/
theorem mem_of_mem_pieces {path piece : String} (h : piece ∈ pieces path) {c : Char}
    (hc : c ∈ piece.toList) : c ∈ path.toList := by
  have hall : ∀ parts : List (List Char), piece.toList ∈ parts →
      c ∈ "/".toList.intercalate parts := by
    intro parts
    induction parts with
    | nil => simp
    | cons part parts ih =>
      intro hmem
      rcases List.mem_cons.mp hmem with rfl | hmem
      · cases parts with
        | nil => simpa using hc
        | cons => simp [List.intercalate_cons_cons, hc]
      · cases parts with
        | nil => simp at hmem
        | cons =>
          rw [List.intercalate_cons_cons]
          exact List.mem_append_right _ (ih hmem)
  rw [← intercalate_pieces path, String.toList_intercalate]
  exact hall _ (List.mem_map.mpr ⟨piece, h, rfl⟩)

end Path

namespace World

/-- A tree whose links say what a path may say. -/
structure IsReal (w : World) : Prop extends IsTree w where
  targets : ∀ x ∈ w.nodes, ∀ t ∈ x.2.target?, '\x00' ∉ t.toList

instance (w : World) : Decidable w.IsReal :=
  decidable_of_iff (w.IsTree ∧ ∀ x ∈ w.nodes, ∀ t ∈ x.2.target?, '\x00' ∉ t.toList)
    ⟨fun h => ⟨h.1, h.2⟩, fun h => ⟨h.toIsTree, h.targets⟩⟩

theorem IsStep.isName {name : String} (h : IsStep name) (hslash : '/' ∉ name.toList)
    (hzero : '\x00' ∉ name.toList) (hshort : name.utf8ByteSize ≤ 255) : IsName name := by
  have hbusy := h.busy
  simp only [walk.isIdle, Bool.or_eq_false_iff, beq_eq_false_iff_ne] at hbusy
  exact ⟨hbusy.1, hbusy.2, by simpa using h.down, hslash, hzero, hshort⟩

namespace IsReal
variable {w : World} (hw : w.IsReal)
include hw

theorem target {q : Place} {t : String} (hat : w.at? q = some (.link t)) : '\x00' ∉ t.toList := by
  have hq : q ≠ [] := by
    rintro rfl
    cases hat
  exact hw.targets _ ((Distinct.mem_nodes_iff hw.distinct hq).mpr hat) t rfl

theorem named_of_leads {follow slash : Bool} {links : Nat} {here : Place} {names : List String}
    {trail : List Place} {spot : Spot} (hhere : ∀ n ∈ here, IsName n)
    (hnames : ∀ n ∈ names, '/' ∉ n.toList ∧ '\x00' ∉ n.toList)
    (h : Leads w follow slash links here names trail spot) : ∀ n ∈ spot.place, IsName n := by
  have hstep : ∀ {here : Place} {name : String}, (∀ n ∈ here, IsName n) → IsStep name →
      '/' ∉ name.toList ∧ '\x00' ∉ name.toList → name.utf8ByteSize ≤ 255 →
      ∀ n ∈ here ++ [name], IsName n := by
    intro here name hhere hname hchars hshort n hn
    rcases List.mem_append.mp hn with hn | hn
    · exact hhere n hn
    · exact List.mem_singleton.mp hn ▸ hname.isName hchars.1 hchars.2 hshort
  induction h with
  | here => exact hhere
  | idle _ _ ih => exact ih hhere fun n hn => hnames n (by simp [hn])
  | up _ _ _ ih =>
    exact ih (fun n hn => hhere n (List.mem_of_mem_dropLast hn)) fun n hn => hnames n (by simp [hn])
  | free hname hshort | file hname hshort | link hname hshort =>
    exact hstep hhere hname (hnames _ (by simp)) hshort
  | down hname hshort _ _ ih =>
    exact ih (hstep hhere hname (hnames _ (by simp)) hshort) fun n hn => hnames n (by simp [hn])
  | through _ _ hat _ _ _ ih =>
    refine ih ?_ fun n hn => ?_
    · split
      · simp
      · exact hhere
    · rcases List.mem_append.mp hn with hn | hn
      · exact ⟨Path.slashless_of_mem_pieces hn, fun hc => hw.target hat (Path.mem_of_mem_pieces hn hc)⟩
      · exact hnames n (by simp [hn])

theorem named_of_leadsToDir {path : String} {p : Place} (hzero : '\x00' ∉ path.toList)
    (h : w.LeadsToDir path p) : ∀ n ∈ p, IsName n := by
  obtain ⟨trail, hleads⟩ := leads_of_walk ((leadsToDir_iff false rfl).mp h)
  refine hw.named_of_leads (hw.isName_of_at? (hw.rooted.start path)) (fun n hn => ?_) hleads
  exact ⟨Path.slashless_of_mem_pieces hn, hzero ∘ Path.mem_of_mem_pieces hn⟩

/-- What a path leads to has names, and a directory to stand in. -/
theorem spot {follow : Bool} {path : String} {spot : Spot}
    (h : w.resolve follow path = .ok spot) (hdir : ∀ q, spot ≠ .taken q .dir) :
    spot.place ≠ [] ∧ (∀ n ∈ spot.place, IsName n) ∧ w.at? spot.place.dropLast = some .dir ∧
      w.at? spot.place ≠ some .dir := by
  obtain ⟨trail, hleads⟩ := leads_of_resolve h
  obtain ⟨hne, hfree⟩ := leads_place_free hleads hdir
  refine ⟨hne, hw.named_of_leads ?_ ?_ hleads, ?_, hfree⟩
  · exact hw.isName_of_at? (hw.rooted.start path)
  · intro n hn
    have hmem : n ∈ Path.pieces path := by
      have hrest := (List.dropWhile_suffix _).subset (List.mem_reverse.mp hn)
      exact List.mem_reverse.mp hrest
    have hzero : '\x00' ∉ path.toList := by simpa using (isPath_of_resolve h).noZero
    exact ⟨Path.slashless_of_mem_pieces hmem, hzero ∘ Path.mem_of_mem_pieces hmem⟩
  · cases spot with
    | free q => exact hw.rooted.parent_of_free (hw.rooted.start path) hleads
    | taken q n =>
      rcases leads_taken hleads with rfl | ⟨hat, -⟩
      · exact absurd rfl (hdir q)
      · exact hw.rooted.parent q n hat

/-- A directory or a file can be put in a directory; a directory stays one. -/
theorem put {p : Place} {n : Node} (hne : p ≠ []) (hnamed : ∀ name ∈ p, IsName name)
    (hparent : w.at? p.dropLast = some .dir)
    (hn : n = .dir ∨ w.at? p ≠ some .dir ∧ ∃ bytes, n = .file bytes) : (w.put p n).IsReal := by
  have hdir : ∀ q, w.at? q = some .dir → (w.put p n).at? q = some .dir := by
    intro q hq
    by_cases hqp : q = p
    · subst hqp
      rcases hn with rfl | ⟨hfree, -⟩
      · exact at?_put_self w hne .dir
      · exact absurd hq hfree
    · rwa [at?_put_ne w hqp]
  have hnodes : ∀ x ∈ (w.put p n).nodes, x = (p, n) ∨ x ∈ w.nodes := fun x hx =>
    (List.mem_cons.mp hx).imp_right fun hx => (List.mem_filter.mp hx).1
  refine ⟨⟨Distinct.put hw.distinct p n, ?_, ?_, hdir _ hw.cwd⟩, ?_⟩
  · intro x hx
    rcases hnodes x hx with rfl | hx
    · exact hnamed
    · exact hw.named x hx
  · intro x hx
    rcases hnodes x hx with rfl | hx
    · exact hdir _ hparent
    · exact hdir _ (hw.parent x hx)
  · intro x hx t ht
    rcases hnodes x hx with rfl | hx
    · rcases hn with rfl | ⟨-, bytes, rfl⟩ <;> cases ht
    · exact hw.targets x hx t ht

theorem putFile {follow : Bool} {path : String} {spot : Spot}
    (h : w.resolve follow path = .ok spot) (hdir : ∀ q, spot ≠ .taken q .dir) (bytes : ByteArray) :
    (w.put spot.place (.file bytes)).IsReal := by
  obtain ⟨hne, hnamed, hparent, hfree⟩ := hw.spot h hdir
  exact hw.put hne hnamed hparent (.inr ⟨hfree, bytes, rfl⟩)

theorem makeDir {v : World} {path : String} (h : w.makeDir path = .ok v) : v.IsReal := by
  obtain ⟨p, hp, rfl⟩ := makeDir_ok h
  obtain ⟨hne, hnamed, hparent, -⟩ := hw.spot hp (by simp)
  exact hw.put hne hnamed hparent (.inl rfl)

omit hw in
theorem makeDirsWithin (fuel : Nat) (path : String) (hw : w.IsReal) :
    (World.makeDirsWithin fuel w path).2.IsReal := by
  fun_induction World.makeDirsWithin fuel w path with
  | case1 | case2 | case4 | case9 | case10 => exact hw
  | case3 fuel w path hne v hdir => exact hw.makeDir hdir
  | case5 fuel w path hne hmissing up hparent e v hrec ih => simpa [hrec] using ih hw
  | case6 fuel w path hne hmissing up hparent v hrec v' hdir ih =>
    rw [hrec] at ih
    exact (ih hw).makeDir hdir
  | case7 fuel w path hne hmissing up hparent v hrec e hdir hisDir ih =>
    simpa [hrec] using ih hw
  | case8 fuel w path hne hmissing up hparent v hrec e hdir hisDir ih =>
    simpa [hrec] using ih hw

theorem makeDirs (path : String) : (w.makeDirs path).2.IsReal := makeDirsWithin _ path hw

theorem touch {v : World} {path : String} (h : w.touch path = .ok v) : v.IsReal := by
  rcases touch_ok h with rfl | ⟨p, hp, rfl⟩
  · exact hw
  · exact hw.putFile hp (by simp) .empty

theorem replaceFile {v : World} {path : String} {bytes : ByteArray}
    (h : w.replaceFile path bytes = .ok v) : v.IsReal := by
  obtain ⟨-, spot, hspot, hdir, rfl⟩ := replaceFile_ok h
  exact hw.putFile hspot hdir bytes

theorem writeFile {v : World} {path : String} {bytes : ByteArray}
    (h : w.writeFile path bytes = .ok v) : v.IsReal := by
  obtain ⟨-, spot, hspot, hdir, rfl⟩ := writeFile_spot h
  exact hw.putFile hspot hdir bytes

/-! What is removed or moved must not hold the current directory. -/

omit hw in
theorem mem_prune {p : Place} {x : Place × Node} (hx : x ∈ (w.prune p).nodes) :
    x ∈ w.nodes ∧ ¬ p <+: x.1 := by
  obtain ⟨hmem, hkept⟩ := List.mem_filter.mp hx
  refine ⟨hmem, fun hpre => ?_⟩
  simp [List.isPrefixOf_iff_prefix.mpr hpre] at hkept

theorem prune {p : Place} (hcwd : ¬ p <+: w.cwd) : (w.prune p).IsReal := by
  refine ⟨⟨Distinct.prune hw.distinct p, fun x hx => hw.named x (mem_prune hx).1, fun x hx => ?_, ?_⟩,
    fun x hx => hw.targets x (mem_prune hx).1⟩
  · obtain ⟨hmem, hbeside⟩ := mem_prune hx
    rw [at?_prune_else fun hpre => hbeside (hpre.trans (List.dropLast_prefix _))]
    exact hw.parent x hmem
  · rw [at?_prune_else (q := (w.prune p).cwd) hcwd]
    exact hw.cwd

theorem move {p q : Place} (hp : p ≠ []) (hq : q ≠ []) (hnamed : ∀ n ∈ q, IsName n)
    (hparent : w.at? q.dropLast = some .dir) (hbeside : ¬ p <+: q.dropLast)
    (hcwd : ¬ p <+: w.cwd) (hcwd' : ¬ q <+: w.cwd) : (w.move p q).IsReal := by
  have helse : ∀ r, ¬ p <+: r → ¬ q <+: r → (w.move p q).at? r = w.at? r := fun r hr hr' => by
    rw [at?_move_else hr', at?_prune_else hr]
  have hmoved : ∀ x ∈ (w.move p q).nodes, (∃ rest, (p ++ rest, x.2) ∈ w.nodes ∧ x.1 = q ++ rest) ∨
      x ∈ w.nodes ∧ ¬ p <+: x.1 ∧ ¬ q <+: x.1 := by
    intro x hx
    rcases List.mem_append.mp (show x ∈ w.moved p q ++ ((w.prune p).prune q).nodes from hx)
      with hx | hx
    · obtain ⟨⟨r, n⟩, hmem, hr⟩ := List.mem_filterMap.mp hx
      obtain ⟨rest, hrest, rfl⟩ := Option.map_eq_some_iff.mp hr
      obtain rfl := isPrefixOf?_eq_some.mp hrest
      exact .inl ⟨rest, hmem, rfl⟩
    · obtain ⟨hx, hbelow⟩ := mem_prune hx
      obtain ⟨hmem, hbelow'⟩ := mem_prune hx
      exact .inr ⟨hmem, hbelow', hbelow⟩
  have hself : ¬ q <+: q.dropLast := fun hpre => by
    have hlength := hpre.length_le
    have hpos := List.length_pos_iff.mpr hq
    rw [List.length_dropLast] at hlength
    omega
  refine ⟨⟨Distinct.move hw.distinct p q, fun x hx => ?_, fun x hx => ?_, ?_⟩, fun x hx => ?_⟩
  · rcases hmoved x hx with ⟨rest, hmem, heq⟩ | ⟨hmem, -, -⟩
    · intro n hn
      rw [heq] at hn
      rcases List.mem_append.mp hn with hn | hn
      · exact hnamed n hn
      · exact hw.named _ hmem n (by simp [hn])
    · exact hw.named x hmem
  · rcases hmoved x hx with ⟨rest, hmem, heq⟩ | ⟨hmem, hbelow, hbelow'⟩
    · rw [heq]
      by_cases hrest : rest = []
      · rw [hrest, List.append_nil, helse _ hbeside hself]
        exact hparent
      · have hdir := hw.parent _ hmem
        rw [List.dropLast_append_of_ne_nil hrest] at hdir ⊢
        rw [at?_move_target hp hq, hdir]
    · rw [helse _ (fun hpre => hbelow (hpre.trans (List.dropLast_prefix _)))
        fun hpre => hbelow' (hpre.trans (List.dropLast_prefix _))]
      exact hw.parent x hmem
  · rw [helse (w.move p q).cwd hcwd hcwd']
    exact hw.cwd
  · rcases hmoved x hx with ⟨rest, hmem, -⟩ | ⟨hmem, -, -⟩
    · exact hw.targets (p ++ rest, x.2) hmem
    · exact hw.targets x hmem

end IsReal
end World
end SkillAudit
