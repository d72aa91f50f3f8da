/-! Ascending lists of codes without repetitions, and looking a code up by halving. -/

namespace Rejoin

namespace Codes

/-- A code put into an ascending list, unless it is there already. -/
def insert (code : UInt16) : List UInt16 → List UInt16
  | [] => [code]
  | first :: rest =>
    if code < first then code :: first :: rest
    else if code = first then first :: rest
    else first :: insert code rest

def ofList (codes : List UInt16) : List UInt16 := codes.foldr insert []

theorem mem_insert {code other : UInt16} {codes : List UInt16} :
    other ∈ insert code codes ↔ other = code ∨ other ∈ codes := by
  fun_induction insert code codes with
  | case1 => exact List.mem_cons
  | case2 => exact List.mem_cons
  | case3 rest _ => exact ⟨.inr, fun h => h.elim (fun heq => heq ▸ List.mem_cons_self) id⟩
  | case4 first rest _ _ ih =>
    rw [List.mem_cons, ih, List.mem_cons]
    exact or_left_comm

theorem lt_of_not_lt_of_ne {left right : UInt16} (hlt : ¬ left < right) (hne : left ≠ right) :
    right < left :=
  (UInt16.lt_or_lt_of_ne hne).resolve_left hlt

theorem insert_ascending {code : UInt16} {codes : List UInt16} (h : codes.Pairwise (· < ·)) :
    (insert code codes).Pairwise (· < ·) := by
  fun_induction insert code codes with
  | case1 => exact List.pairwise_singleton _ _
  | case2 first rest hlt =>
    refine h.cons fun other hother => ?_
    by_cases heq : other = first
    · exact heq ▸ hlt
    · exact UInt16.lt_trans hlt
        (List.rel_of_pairwise_cons h ((List.mem_cons.1 hother).resolve_left heq))
  | case3 => exact h
  | case4 first rest hlt hne ih =>
    refine (ih h.of_cons).cons fun other hother => ?_
    by_cases heq : other = code
    · exact heq ▸ lt_of_not_lt_of_ne hlt hne
    · exact List.rel_of_pairwise_cons h ((mem_insert.1 hother).resolve_left heq)

theorem ofList_ascending (codes : List UInt16) : (ofList codes).Pairwise (· < ·) := by
  induction codes with
  | nil => exact List.Pairwise.nil
  | cons code codes ih => exact insert_ascending ih

/-- Whether a code is among those at the positions from `low` up to but not including `high` of an
ascending array, by halving. -/
def bisect (codes : Array UInt16) (code : UInt16) (low high : Nat) : Bool :=
  if _ : low < high then
    let middle := (low + high) / 2
    match codes[middle]? with
    | some found =>
      if found = code then true
      else if found < code then bisect codes code (middle + 1) high
      else bisect codes code low middle
    | none => false
  else false
termination_by high - low

end Codes

end Rejoin
