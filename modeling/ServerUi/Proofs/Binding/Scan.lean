import ServerUi.Proofs.Binding.Pattern
import ServerUi.Proofs.Binding.Token

/-!
# ServerUi.Proofs.Binding.Scan — a text cut at its tokens

`Cut` says what the segments of a text are: up to the first place where a token stands the text is
a literal, unless there is none of it; then comes the path of the token, and then the segments of
what follows the token.  A text is cut in one way only, and `ofString` finds it
(`ofString_realises_pattern`), whether it scans the text or sees that there is nothing to scan for.
-/

namespace ServerUi

namespace Template

/-- No token starts in `before` where `rest` follows it. -/
def NoToken (before rest : List Char) : Prop :=
  ∀ start, start <:+ before → start ≠ [] → ∀ path after, ¬IsToken (start ++ rest) path after

/-- The segments of a text that is cut at its leftmost tokens, each after the one before. -/
inductive Cut : List Char → Template → Prop
  | literal {text : List Char} (hnone : NoToken text []) : Cut text (plain (String.ofList text))
  | token {before here path after : List Char} {t : Template} (hfirst : NoToken before here)
      (htoken : IsToken here path after) (hrest : Cut after t) :
      Cut (before ++ here) (plain (String.ofList before) ++ .binding (String.ofList path) :: t)

/-! ### Literals -/

theorem noToken_nil (rest : List Char) : NoToken [] rest :=
  fun _ h hne => absurd (List.suffix_nil.mp h) hne

/-- No token begins in a text exactly if none begins at its first character or in the rest. -/
theorem noToken_cons {c : Char} {before rest : List Char} :
    NoToken (c :: before) rest ↔
      token? (c :: before ++ rest) = none ∧ NoToken before rest := by
  have hnone : token? (c :: before ++ rest) = none ↔
      ∀ path after, ¬IsToken (c :: before ++ rest) path after := by
    simp only [Option.eq_none_iff_forall_ne_some, Prod.forall, ne_eq, token?_eq_some_iff]
  rw [hnone]
  constructor
  · intro h
    exact ⟨h _ List.suffix_rfl (List.cons_ne_nil _ _),
      fun start hstart => h start (hstart.trans (List.suffix_cons c before))⟩
  · rintro ⟨hhere, hbefore⟩ start hstart hne
    obtain rfl | hstart := List.suffix_cons_iff.mp hstart
    · exact hhere
    · exact hbefore start hstart hne

theorem plain_cons (c : Char) (text : List Char) :
    plain (String.ofList (c :: text)) = [.literal (String.ofList (c :: text))] := by
  rw [plain, if_neg]
  intro h
  have hlist := congrArg String.toList h
  rw [String.toList_ofList] at hlist
  cases hlist

/-- A character before plain text joins the literal that stands there. -/
theorem prepend_plain (c : Char) (text : List Char) {t : Template}
    (ht : ∀ s t', t ≠ .literal s :: t') :
    prepend c (plain (String.ofList text) ++ t) = plain (String.ofList (c :: text)) ++ t := by
  rw [plain_cons]
  cases text with
  | nil =>
    have hempty : plain (String.ofList []) = [] := rfl
    rw [hempty, List.nil_append, List.singleton_append]
    rcases t with _ | ⟨_ | path, t⟩
    · rfl
    · exact absurd rfl (ht _ _)
    · rfl
  | cons d text =>
    rw [plain_cons, List.singleton_append, prepend, String.toList_ofList, List.singleton_append]

/-- Text in front of a token becomes one literal. -/
theorem scan_append {before rest : List Char} (h : NoToken before rest)
    (hrest : ∀ s t', scan 0 rest ≠ .literal s :: t') :
    scan 0 (before ++ rest) = plain (String.ofList before) ++ scan 0 rest := by
  induction before with
  | nil => rfl
  | cons c before ih =>
    obtain ⟨hnone, hbefore⟩ := noToken_cons.mp h
    rw [List.cons_append] at hnone ⊢
    rw [scan, hnone, ih hbefore, prepend_plain c before hrest]

/-! ### Tokens -/

/-- The scan passes over as many characters as it is told to. -/
theorem scan_skip (skipped rest : List Char) :
    scan skipped.length (skipped ++ rest) = scan 0 rest := by
  induction skipped with
  | nil => rfl
  | cons c skipped ih => exact ih

theorem scan_token {here path after : List Char} (h : IsToken here path after) :
    scan 0 here = .binding (String.ofList path) :: scan 0 after := by
  have hfound := token?_eq_some_iff.mpr h
  obtain ⟨w, w', -, -, rfl⟩ := h.eq_append
  rw [List.cons_append] at hfound ⊢
  rw [scan, hfound]
  show _ :: scan _ _ = _
  rw [List.length_append, Nat.add_sub_cancel, scan_skip]

/-! ### Texts -/

/-- A text is cut in one way. -/
theorem scan_eq_of_cut {text : List Char} {t : Template} (h : Cut text t) : scan 0 text = t := by
  induction h with
  | @literal text hnone =>
    have hscan := scan_append hnone nofun
    rwa [List.append_nil, scan, List.append_nil] at hscan
  | token hfirst htoken _ ih =>
    have hhere := scan_token htoken
    rw [scan_append hfirst, hhere, ih]
    intro s t' heq
    cases hhere.symm.trans heq

theorem exists_first_token (text : List Char) :
    NoToken text [] ∨ ∃ before here path after,
      text = before ++ here ∧ NoToken before here ∧ IsToken here path after := by
  induction text with
  | nil => exact .inl (noToken_nil [])
  | cons c text ih =>
    cases htoken : token? (c :: text) with
    | some found =>
      exact .inr ⟨[], c :: text, found.1, found.2, rfl, noToken_nil _, token?_eq_some_iff.mp htoken⟩
    | none =>
      obtain hnone | ⟨before, here, path, after, rfl, hfirst, hhere⟩ := ih
      · exact .inl (noToken_cons.mpr ⟨by rwa [List.append_nil], hnone⟩)
      · exact .inr ⟨c :: before, here, path, after, rfl, noToken_cons.mpr ⟨htoken, hfirst⟩, hhere⟩

/-- Every text can be cut at its tokens. -/
theorem exists_cut (text : List Char) : ∃ t, Cut text t := by
  obtain hnone | ⟨before, here, path, after, rfl, hfirst, hhere⟩ := exists_first_token text
  · exact ⟨_, .literal hnone⟩
  · have hshorter : after.length < (before ++ here).length := by
      obtain ⟨w, w', -, -, rfl⟩ := hhere.eq_append
      simp
      omega
    obtain ⟨t, ht⟩ := exists_cut after
    exact ⟨_, .token hfirst hhere ht⟩
termination_by text.length

/-- The scan of a text is its one cut. -/
theorem scan_eq_iff {text : List Char} {t : Template} : scan 0 text = t ↔ Cut text t := by
  refine ⟨?_, scan_eq_of_cut⟩
  rintro rfl
  obtain ⟨t, ht⟩ := exists_cut text
  rwa [scan_eq_of_cut ht]

theorem hasOpening_of_suffix {start text : List Char} (h : start <:+ text)
    (hstart : hasOpening start = true) : hasOpening text = true := by
  induction text with
  | nil => rwa [List.suffix_nil.mp h] at hstart
  | cons c text ih =>
    obtain rfl | h := List.suffix_cons_iff.mp h
    · exact hstart
    · unfold hasOpening
      split
      · rename_i heq
        cases heq
      · rfl
      · rename_i heq
        cases heq
        exact ih h

/-- A text without opening braces need not be scanned. -/
theorem ofString_eq_scan (source : String) : ofString source = scan 0 source.toList := by
  rw [ofString]
  split_ifs with hopening
  · rfl
  · have hnone : NoToken source.toList [] := by
      intro start hstart _ path after htoken
      obtain ⟨w, w', -, -, heq⟩ := htoken.eq_append
      rw [List.append_nil] at heq
      exact hopening (hasOpening_of_suffix hstart (heq ▸ rfl))
    rw [scan_eq_of_cut (.literal hnone), String.ofList_toList]

/-- A text is cut at the leftmost tokens, one after the other, whether it is scanned or not, and
a token is what a backtracking search for `\x7b\x7b\s*(.+?)\s*\x7d\x7d` captures and leaves. -/
theorem ofString_realises_pattern (source : String) :
    (∀ t, ofString source = t ↔ Cut source.toList t) ∧
      ofString source = scan 0 source.toList ∧
      ∀ s path after : List Char, IsToken s path after ↔
        (Pattern.token.ways s).head?.map (fun m => (m.groups, m.rest)) = some ([path], after) := by
  refine ⟨fun t => ?_, ofString_eq_scan source, fun s path after => ?_⟩
  · rw [ofString_eq_scan, scan_eq_iff]
  · rw [Pattern.head?_ways_token, ← token?_eq_some_iff]
    constructor
    · intro h
      rw [h]
      rfl
    · intro h
      obtain ⟨⟨path', after'⟩, hfound, heq⟩ := Option.map_eq_some_iff.mp h
      cases heq
      exact hfound

/-- No token starts at the first brace, and a blank token takes the last blank before its break. -/
example : ofString "\x7b\x7b\x7b\n a\x7d\x7d x \x7b\x7b \n\x7d\x7d" =
    [.literal "\x7b", .binding "a", .literal " x ", .binding " "] := by
  decide +kernel

end Template

end ServerUi
