import Mathlib
import SkillAudit.Proofs.Route

/-!
Following a path by recursion on its names. What is to be done at a link is a parameter, so that the
recursion is structural and a path in a given tree can be evaluated.
-/
namespace SkillAudit.World

/-- Follows names from a directory, as `walk` does, with an answer for what comes after a link. -/
def stroll (w : World) (follow slash : Bool)
    (onLink : String → Place → List String → Except OsError Spot) :
    Place → List String → Except OsError Spot
  | here, [] => .ok (.taken here .dir)
  | here, name :: rest =>
    if walk.isIdle name then stroll w follow slash onLink here rest
    else if name == ".." then stroll w follow slash onLink here.dropLast rest
    else if name.utf8ByteSize > 255 then .error .nameTooLong
    else
      match w.at? (here ++ [name]) with
      | none => if rest.isEmpty then .ok (.free (here ++ [name])) else .error .notFound
      | some .dir => stroll w follow slash onLink (here ++ [name]) rest
      | some (.file bytes) =>
        if rest.isEmpty && !slash then .ok (.taken (here ++ [name]) (.file bytes))
        else .error .notDirectory
      | some (.link target) =>
        if rest.isEmpty && !follow && !slash then .ok (.taken (here ++ [name]) (.link target))
        else onLink target here rest

/-- Follows names over at most so many links. -/
def strollOver (w : World) (follow slash : Bool) : Nat → Place → List String → Except OsError Spot
  | 0 => stroll w follow slash fun _ _ _ => .error .tooManyLinks
  | links + 1 => stroll w follow slash fun target here rest =>
      if target == "" then .error .notFound
      else strollOver w follow slash links (if Path.isAbsolute target then [] else here)
        (Path.pieces target ++ rest)

theorem strollOver_nil (w : World) (follow slash : Bool) (links : Nat) (here : Place) :
    w.strollOver follow slash links here [] = .ok (.taken here .dir) := by
  cases links <;> rfl

theorem strollOver_cons (w : World) (follow slash : Bool) (links : Nat) (here : Place)
    (name : String) (rest : List String) :
    w.strollOver follow slash links here (name :: rest) =
      if walk.isIdle name then w.strollOver follow slash links here rest
      else if name == ".." then w.strollOver follow slash links here.dropLast rest
      else if name.utf8ByteSize > 255 then .error .nameTooLong
      else
        match w.at? (here ++ [name]) with
        | none => if rest.isEmpty then .ok (.free (here ++ [name])) else .error .notFound
        | some .dir => w.strollOver follow slash links (here ++ [name]) rest
        | some (.file bytes) =>
          if rest.isEmpty && !slash then .ok (.taken (here ++ [name]) (.file bytes))
          else .error .notDirectory
        | some (.link target) =>
          if rest.isEmpty && !follow && !slash then .ok (.taken (here ++ [name]) (.link target))
          else
            match links with
            | 0 => .error .tooManyLinks
            | links + 1 =>
              if target == "" then .error .notFound
              else w.strollOver follow slash links (if Path.isAbsolute target then [] else here)
                (Path.pieces target ++ rest) := by
  cases links <;> rfl

theorem walk_eq_strollOver (w : World) (follow slash : Bool) (links : Nat) (here : Place)
    (names : List String) :
    w.walk follow slash links here names = w.strollOver follow slash links here names := by
  fun_induction walk w follow slash links here names with
  | case1 => rw [strollOver_nil]
  | case2 links here name rest hidle ih => rw [strollOver_cons, if_pos hidle, ih]
  | case3 links here name rest hidle hup ih =>
    rw [strollOver_cons, if_neg hidle, if_pos hup, ih]
  | case4 links here name rest hidle hup hlong =>
    rw [strollOver_cons, if_neg hidle, if_neg hup, if_pos hlong]
  | case5 links here name rest hidle hup hlong place hat hlast
  | case6 links here name rest hidle hup hlong place hat hlast
  | case8 links here name rest hidle hup hlong place bytes hat hlast
  | case9 links here name rest hidle hup hlong place bytes hat hlast
  | case10 links here name rest hidle hup hlong place target hat hlast =>
    rw [strollOver_cons, if_neg hidle, if_neg hup, if_neg hlong]
    simp [place] at hat
    simp [hat, hlast, place]
  | case7 links here name rest hidle hup hlong place hat ih =>
    rw [strollOver_cons, if_neg hidle, if_neg hup, if_neg hlong, ih]
    simp [place] at hat
    simp [hat, place]
  | case11 here name rest hidle hup hlong place target hat hlast =>
    rw [strollOver_cons, if_neg hidle, if_neg hup, if_neg hlong]
    simp [place] at hat
    simp only [hat, hlast]
    rfl
  | case12 here name rest hidle hup hlong place target hat hlast links htarget =>
    rw [strollOver_cons, if_neg hidle, if_neg hup, if_neg hlong]
    simp [place] at hat
    simp only [hat, hlast, htarget]
    rfl
  | case13 here name rest hidle hup hlong place target hat hlast links htarget ih =>
    rw [strollOver_cons, if_neg hidle, if_neg hup, if_neg hlong]
    simp [place] at hat
    simp only [dite_eq_ite] at ih
    simp only [hat, hlast, htarget, ih]
    rfl

/-- Where a path leads, by a recursion that can be evaluated. -/
def reaches (w : World) (follow : Bool) (path : String) : Except OsError Spot :=
  if path == "" then .error .notFound
  else if path.toList.contains '\x00' then .error .invalidName
  else if path.utf8ByteSize ≥ 4096 then .error .nameTooLong
  else w.strollOver follow (endsInSlash path) linkLimit (w.start path) (namesOf path)

theorem resolve_eq_reaches (w : World) (follow : Bool) (path : String) :
    w.resolve follow path = w.reaches follow path := by
  rw [resolve_eq, walk_eq_strollOver, reaches]

end SkillAudit.World
