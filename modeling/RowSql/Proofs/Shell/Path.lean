import RowSql.Proofs.Text.Items
import RowSql.Shell.Path

/-!
# Absolute paths are settled

An absolute path is one or two slashes and components, none of which is empty,
`.` or `..`. Every absolute path that is made has this form, and a path of this
form means itself, whatever the current directory is. So a file that is known by
its absolute path stays the same file when the path is given again in full.
-/

namespace RowSql.Shell

open Text

/-- A part of a path that names a file or a directory. -/
structure IsComponent (c : Text) : Prop where
  ne_nil : c ≠ []
  ne_dot : c ≠ ".".toText
  ne_dots : c ≠ "..".toText
  noSlash : .char '/' ∉ c

/-- A path from the root in which there is nothing to resolve. -/
inductive IsSettled : Text → Prop where
  | one {cs : List Text} (h : ∀ c ∈ cs, IsComponent c) :
      IsSettled ('/' :: join "/".toText cs)
  | two {cs : List Text} (h : ∀ c ∈ cs, IsComponent c) :
      IsSettled ('/' :: '/' :: join "/".toText cs)

variable {cs passed : List Text} {path : Text}

/-! ## Components

A path is resolved component by component. What comes out has no empty ones and
no dots, and is resolved to itself. -/

theorem isComponent_of_mem_resolve (hpassed : ∀ c ∈ passed, IsComponent c)
    (hcs : ∀ c ∈ cs, .char '/' ∉ c) :
    ∀ c ∈ resolve passed cs, IsComponent c := by
  induction cs generalizing passed with
  | nil =>
      intro c hc
      exact hpassed c (List.mem_reverse.1 hc)
  | cons c cs ih =>
      obtain ⟨hc, hcs⟩ := List.forall_mem_cons.1 hcs
      rw [resolve]
      split
      · exact ih hpassed hcs
      · next hsome =>
          rw [not_or] at hsome
          split
          · exact ih (fun d hd => hpassed d (List.mem_of_mem_tail hd)) hcs
          · next hdots =>
              exact ih (List.forall_mem_cons.2 ⟨⟨hsome.1, hsome.2, hdots, hc⟩,
                hpassed⟩) hcs

theorem resolve_of_components (h : ∀ c ∈ cs, IsComponent c) :
    resolve passed cs = passed.reverse ++ cs := by
  induction cs generalizing passed with
  | nil => rw [resolve, List.append_nil]
  | cons c cs ih =>
      obtain ⟨hc, hcs⟩ := List.forall_mem_cons.1 h
      rw [resolve, if_neg (not_or.2 ⟨hc.ne_nil, hc.ne_dot⟩),
        if_neg hc.ne_dots, ih hcs, List.reverse_cons, List.append_assoc,
        List.singleton_append]

theorem resolve_splitOn_join (h : ∀ c ∈ cs, IsComponent c) :
    resolve [] ((join "/".toText cs).splitOn (.char '/')) = cs := by
  cases cs with
  | nil => rfl
  | cons c cs =>
      have hsplit :
          (join "/".toText (c :: cs)).splitOn (.char '/') = c :: cs := by
        rw [join_eq_intercalate]
        exact List.splitOn_intercalate _ (fun d hd => (h d hd).noSlash)
          (List.cons_ne_nil c cs)
      rw [hsplit, resolve_of_components h]
      rfl

/-- Nothing that begins with a component begins with a slash. -/
theorem head?_join_ne (h : ∀ c ∈ cs, IsComponent c) :
    (join "/".toText cs).head? ≠ some (.char '/') := by
  cases cs with
  | nil => exact nofun
  | cons c cs =>
      have hc := h c List.mem_cons_self
      obtain ⟨a, s, rfl⟩ := List.exists_cons_of_ne_nil hc.ne_nil
      obtain ⟨u, hu⟩ := exists_join_cons "/".toText (a :: s) cs
      rw [hu, List.cons_append, List.head?_cons]
      intro ha
      exact hc.noSlash (Option.some.inj ha ▸ List.mem_cons_self)

/-! ## Absolute paths

An absolute path is resolved components behind its slashes. Made absolute again
it does not change, from whatever directory, so it names a file once and for
all. -/

theorem rootSlashes_one {t : Text} (h : t.head? ≠ some (.char '/')) :
    rootSlashes ('/' :: t) = [.char '/'] := by
  cases t with
  | nil => rfl
  | cons c s =>
      rw [rootSlashes.eq_def]
      split <;> simp_all

theorem rootSlashes_two {t : Text} (h : t.head? ≠ some (.char '/')) :
    rootSlashes ('/' :: '/' :: t) = [.char '/', .char '/'] := by
  cases t with
  | nil => rfl
  | cons c s =>
      rw [rootSlashes.eq_def]
      split <;> simp_all

theorem rootSlashes_cases (t : Text) :
    rootSlashes t = [.char '/'] ∨ rootSlashes t = [.char '/', .char '/'] := by
  rw [rootSlashes.eq_def]
  split
  · exact .inl rfl
  · exact .inr rfl
  · exact .inl rfl

/-- A slash at the beginning makes an empty part, which is left out. -/
theorem resolve_splitOn_slash (t : Text) :
    resolve [] (List.splitOn (.char '/') (.char '/' :: t)) =
      resolve [] (t.splitOn (.char '/')) := by
  rw [List.splitOn_cons_eq_if_modifyHead, if_pos (beq_self_eq_true _), resolve,
    if_pos (.inl rfl)]

theorem isSettled_absolutePath (current path : Text) :
    IsSettled (absolutePath current path) := by
  have hnone : ∀ c ∈ ([] : List Text), IsComponent c := nofun
  have hcs := isComponent_of_mem_resolve hnone fun c hc =>
    (of_mem_splitOn (t := fromDirectory current path) hc).1
  rw [absolutePath]
  rcases rootSlashes_cases (fromDirectory current path) with h | h
  · rw [h]
    exact .one hcs
  · rw [h]
    exact .two hcs

/-- A settled path means itself in any directory. -/
theorem IsSettled.absolutePath_eq (h : IsSettled path) (current : Text) :
    absolutePath current path = path := by
  have hroot (t : Text) :
      fromDirectory current (.char '/' :: t) = .char '/' :: t := if_pos rfl
  cases h with
  | one h =>
      rw [absolutePath, hroot, rootSlashes_one (head?_join_ne h),
        resolve_splitOn_slash, resolve_splitOn_join h]
      rfl
  | two h =>
      rw [absolutePath, hroot, rootSlashes_two (head?_join_ne h),
        resolve_splitOn_slash, resolve_splitOn_slash, resolve_splitOn_join h]
      rfl

end RowSql.Shell
