/-!
# Assignments

Lists of keys with values, in the order in which the keys were last set.  A key that is set again
moves to the end, so that keys stay distinct; a look-up sees the first entry of its key.  The main
statements say what a look-up sees after a key was set, and that setting keeps keys distinct.
-/

namespace RestClient
namespace Assoc

variable {κ ν : Type} [DecidableEq κ]

def get? (entries : List (κ × ν)) (key : κ) : Option ν :=
  (entries.find? fun entry => entry.1 = key).map (·.2)

def set (entries : List (κ × ν)) (key : κ) (value : ν) : List (κ × ν) :=
  entries.filter (fun entry => entry.1 ≠ key) ++ [(key, value)]

theorem get?_set_self (entries : List (κ × ν)) (key : κ) (value : ν) :
    get? (set entries key value) key = some value := by
  have hnone : (entries.filter fun entry => entry.1 ≠ key).find?
      (fun entry => entry.1 = key) = none := by
    rw [List.find?_eq_none]
    intro entry hentry
    have hne := (List.mem_filter.mp hentry).2
    simpa using hne
  simp only [set, get?, List.find?_append, hnone]
  simp

theorem get?_set_of_ne (entries : List (κ × ν)) {key other : κ} (value : ν) (h : other ≠ key) :
    get? (set entries key value) other = get? entries other := by
  have hfind : (entries.filter fun entry => entry.1 ≠ key).find?
      (fun entry => entry.1 = other) = entries.find? fun entry => entry.1 = other := by
    rw [List.find?_filter]
    congr 1
    funext entry
    by_cases ho : entry.1 = other
    · simp [ho, h]
    · simp [ho]
  have hlast : [(key, value)].find? (fun entry => entry.1 = other) = none := by
    simp [Ne.symm h]
  simp only [set, get?, List.find?_append, hfind, hlast, Option.or_none]

theorem get?_append (entries more : List (κ × ν)) (key : κ) :
    get? (entries ++ more) key = (get? entries key).or (get? more key) := by
  unfold get?
  rw [List.find?_append]
  cases entries.find? fun entry => entry.1 = key with
  | none => rfl
  | some entry => rfl

theorem get?_foldl_set (news entries : List (κ × ν)) (key : κ) :
    get? (news.foldl (fun entries new => set entries new.1 new.2) entries) key =
      (get? news.reverse key).or (get? entries key) := by
  induction news generalizing entries with
  | nil => rfl
  | cons new rest ih =>
    rw [List.foldl_cons, ih, List.reverse_cons, get?_append, Option.or_assoc]
    congr 1
    by_cases h : key = new.1
    · have hnew : get? [new] key = some new.2 := by
        simp [get?, h]
      rw [hnew, h, get?_set_self]
      rfl
    · have hnew : get? [new] key = none := by
        simp [get?, Ne.symm h]
      rw [hnew, get?_set_of_ne entries new.2 h]
      rfl

theorem filter_of_nodup {entries : List (κ × ν)} (h : (entries.map (·.1)).Nodup) (key : κ) :
    (entries.filter fun entry => entry.1 = key).map (·.2) = (get? entries key).toList := by
  induction entries with
  | nil => rfl
  | cons entry rest ih =>
    rw [List.map_cons, List.nodup_cons] at h
    rw [show entry :: rest = [entry] ++ rest from rfl, get?_append, List.filter_append,
      List.map_append, ih h.2]
    by_cases hentry : entry.1 = key
    · have hrest : get? rest key = none := by
        unfold get?
        rw [Option.map_eq_none_iff, List.find?_eq_none]
        intro other hother hkey
        apply h.1
        rw [hentry, ← of_decide_eq_true hkey]
        exact List.mem_map_of_mem hother
      have hself : get? [entry] key = some entry.2 := by simp [get?, hentry]
      rw [hself, hrest]
      simp [hentry]
    · simp [get?, hentry]

theorem get?_reverse {entries : List (κ × ν)} (h : (entries.map (·.1)).Nodup) (key : κ) :
    get? entries.reverse key = get? entries key := by
  have hnodup : (entries.reverse.map (·.1)).Nodup := by
    rw [List.map_reverse]
    exact List.pairwise_reverse.mpr (h.imp Ne.symm)
  have hreverse := filter_of_nodup hnodup key
  rw [List.filter_reverse, List.map_reverse, filter_of_nodup h key] at hreverse
  have hhead := congrArg List.head? hreverse
  rw [Option.head?_toList] at hhead
  rw [← hhead]
  cases get? entries key with
  | none => rfl
  | some value => rfl

theorem keys_set (entries : List (κ × ν)) (key : κ) (value : ν) :
    (set entries key value).map (·.1) = (entries.map (·.1)).filter (· ≠ key) ++ [key] := by
  rw [set, List.map_append, List.filter_map]
  rfl

theorem nodup_keys_set {entries : List (κ × ν)} (h : (entries.map (·.1)).Nodup) (key : κ)
    (value : ν) : ((set entries key value).map (·.1)).Nodup := by
  rw [keys_set, List.nodup_append]
  constructor
  · exact h.filter _
  · constructor
    · simp
    · intro a ha b hb
      have hne := (List.mem_filter.mp ha).2
      have heq := List.mem_singleton.mp hb
      simpa [heq] using hne

end Assoc
end RestClient
