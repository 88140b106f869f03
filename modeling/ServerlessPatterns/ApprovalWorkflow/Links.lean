-- SUMMARY: The links of the approval email: in both of its bodies they are the same, and they are read back as what they were made from.
import Mathlib.Data.List.TakeWhile
import ServerlessPatterns.ApprovalWorkflow.StateMachine
import ServerlessPatterns.ApprovalWorkflow.Tasks
import ServerlessPatterns.Library.AtLeastOnce
import ServerlessPatterns.Library.Hyperlinks

/-!
# Emailed links

`_decision_url` puts the request id and the task token into a query, and `_send_email`
puts the URL into an attribute of the HTML body. A reader undoes the two in turn.
-/

namespace ApprovalWorkflow

open Program Hyperlinks Python

variable {py : Python} {env : Env} {requestId token action url approveUrl rejectUrl : String}

/-! ## What a reader gets -/

/-- The URL names the request, the token and the action, and nothing in it ends the link. -/
structure LinkFor (py : Python) (env : Env) (requestId token action url : String) : Prop where
  behindBase : ∃ rest, url = rstripChar '/' env.apiBaseUrl ++ rest ∧
    ∀ c ∈ rest.toList, isSpace c = false ∧ c ≠ '"' ∧ c ≠ '\''
  parameters : ∀ plusIsSpace, parseQuery plusIsSpace (queryOf url) =
    some [("request_id", requestId), ("token", token)]
  /-- Where the host ends is left open: the path may begin at any slash. -/
  route : ∀ path params, path.toList <:+ beforeQuery url → startsWith path "/" = true →
    HttpEvent.action py ⟨some path, params⟩ = action

/-- Both bodies of the email have the two links and no others. -/
def CarriesLinks (py : Python) (env : Env) (requestId token : String) (email : Email) : Prop :=
  ∃ approveUrl rejectUrl,
    (∃ details, email.textBody =
      details ++ s!"Approve: {approveUrl}\n" ++ s!"Reject:  {rejectUrl}\n") ∧
    (hrefs email.htmlBody.toList).map unescape = [approveUrl, rejectUrl] ∧
    LinkFor py env requestId token "approve" approveUrl ∧
    LinkFor py env requestId token "reject" rejectUrl

/-! ## The URL -/

/-- What `_decision_url` appends to the base. -/
def linkTail (action requestId token : String) : List Char :=
  '/' :: action.toList ++ '?' :: (parameter "request_id" requestId ++ '&' :: parameter "token" token)

theorem toList_decisionUrl
    (h : decisionUrl env action (.str requestId) (.str token) = .ok url) :
    url.toList = (rstripChar '/' env.apiBaseUrl).toList ++ linkTail action requestId token := by
  have hnames : (quote "request_id").toList = "request_id".toList ∧
      (quote "token").toList = "token".toList := by decide
  injection h with heq
  subst heq
  simp [toString, linkTail, parameter, hnames]

theorem mem_linkTail {c : Char} (haction : action ∈ ["approve", "reject"])
    (h : c ∈ linkTail action requestId token) :
    c ∈ "/approve/reject?&=".toList ∨ IsQuoted c := by
  have hletters : ∀ action ∈ ["approve", "reject"],
      action.toList.all (· ∈ "/approve/reject?&=".toList) = true := by decide
  have hparameter : ∀ {name value}, c ∈ parameter name value →
      c ∈ "/approve/reject?&=".toList ∨ IsQuoted c := by
    intro name value hmem
    refine (mem_parameter hmem).imp_left fun heq => ?_
    rw [heq]
    decide
  simp only [linkTail, List.mem_append, List.mem_cons] at h
  rcases h with (rfl | hletter) | rfl | hrequest | rfl | htoken
  · exact .inl (by decide)
  · exact .inl (List.all_iff_forall_prop.mp (hletters action haction) c hletter)
  · exact .inl (by decide)
  · exact hparameter hrequest
  · exact .inl (by decide)
  · exact hparameter htoken

theorem plain_linkTail {c : Char} (haction : action ∈ ["approve", "reject"])
    (h : c ∈ linkTail action requestId token) : isSpace c = false ∧ c ≠ '"' ∧ c ≠ '\'' := by
  have hplain : ∀ c ∈ "/approve/reject?&=".toList,
      isSpace c = false ∧ c ≠ '"' ∧ c ≠ '\'' := List.all_iff_forall_prop.mp (by decide)
  rcases mem_linkTail haction h with hmem | hquoted
  · exact hplain c hmem
  · refine ⟨hquoted.not_isSpace, ?_, ?_⟩
    · rintro rfl
      exact hquoted.apart (by decide)
    · rintro rfl
      exact hquoted.apart (by decide)

theorem mem_rstripChar {c d : Char} {s : String} (h : c ∈ (rstripChar d s).toList) :
    c ∈ s.toList := by
  rw [rstripChar, String.toList_ofList, List.mem_reverse] at h
  exact List.mem_reverse.mp ((List.dropWhile_sublist _).mem h)

/-- Up to the query, and the query. -/
theorem split_decisionUrl (haction : action ∈ ["approve", "reject"])
    (hbase : ∀ c ∈ env.apiBaseUrl.toList, c ≠ '?' ∧ c ≠ '#')
    (h : decisionUrl env action (.str requestId) (.str token) = .ok url) :
    beforeQuery url = (rstripChar '/' env.apiBaseUrl).toList ++ '/' :: action.toList ∧
      queryOf url = parameter "request_id" requestId ++ '&' :: parameter "token" token := by
  have hletters : ∀ action ∈ ["approve", "reject"],
      ('/' :: action.toList).all (fun c => c ≠ '?' ∧ c ≠ '#') = true := by decide
  have hfront : ∀ c ∈ (rstripChar '/' env.apiBaseUrl).toList ++ '/' :: action.toList,
      c ≠ '?' ∧ c ≠ '#' := by
    intro c hc
    rcases List.mem_append.mp hc with hc | hc
    · exact hbase c (mem_rstripChar hc)
    · exact List.all_iff_forall_prop.mp (hletters action haction) c hc
  have hquery : ∀ c ∈ parameter "request_id" requestId ++ '&' :: parameter "token" token,
      c ≠ '#' := by
    rintro c hc rfl
    simp only [List.mem_append, List.mem_cons] at hc
    rcases hc with hrequest | heq | htoken
    · exact not_mem_parameter (by decide) hrequest
    · exact absurd heq (by decide)
    · exact not_mem_parameter (by decide) htoken
  have hurl : url.toList = ((rstripChar '/' env.apiBaseUrl).toList ++ '/' :: action.toList) ++
      '?' :: (parameter "request_id" requestId ++ '&' :: parameter "token" token) := by
    rw [toList_decisionUrl h, linkTail, List.append_assoc]
  constructor
  · rw [beforeQuery, hurl, List.takeWhile_append_of_pos (by simpa using hfront),
      List.takeWhile_cons_of_neg (by decide), List.append_nil]
  · rw [queryOf, hurl, List.dropWhile_append_of_pos (by simpa using fun c hc => (hfront c hc).1),
      List.dropWhile_cons_of_neg (by decide), List.drop_one, List.tail_cons]
    exact List.takeWhile_eq_self_iff.mpr (by simpa using hquery)

/-- A path behind the host ends with the action. -/
theorem endsWith_action {path : String} {front : List Char} (haction : action ∈ ["approve", "reject"])
    (hsuffix : path.toList <:+ front ++ '/' :: action.toList) (hstart : startsWith path "/" = true) :
    endsWith path ("/" ++ action) = true := by
  have hnoSlash : ∀ action ∈ ["approve", "reject"], '/' ∉ action.toList := by decide
  rw [endsWith, List.isSuffixOf_iff_suffix, String.toList_append]
  rcases List.suffix_or_suffix_of_suffix hsuffix (List.suffix_append _ _) with hshort | hlong
  · obtain ⟨rest, hrest⟩ := List.isPrefixOf_iff_prefix.mp hstart
    rcases List.suffix_cons_iff.mp hshort with heq | hinside
    · rw [heq]
      exact List.suffix_refl _
    · have hmem : '/' ∈ path.toList := by
        rw [← hrest]
        exact List.mem_append_left _ (by decide)
      exact absurd (hinside.mem hmem) (hnoSlash action haction)
  · exact hlong

theorem action_of_endsWith {path : String} {params : Option (List (String × String))}
    (haction : action ∈ ["approve", "reject"]) (h : endsWith path ("/" ++ action) = true) :
    HttpEvent.action py ⟨some path, params⟩ = action := by
  simp only [List.mem_cons, List.not_mem_nil, or_false] at haction
  rcases haction with rfl | rfl
  · exact if_pos h
  · have hother : endsWith path "/approve" = false := by
      rw [endsWith, List.isSuffixOf_iff_suffix] at h
      rw [endsWith, ← Bool.not_eq_true, List.isSuffixOf_iff_suffix]
      intro happrove
      have hapart : ¬ "/approve".toList <:+ "/reject".toList ∧
          ¬ "/reject".toList <:+ "/approve".toList := by decide
      rcases List.suffix_or_suffix_of_suffix happrove h with hsuffix | hsuffix
      · exact hapart.1 hsuffix
      · exact hapart.2 hsuffix
    exact (if_neg (Bool.eq_false_iff.mp hother)).trans (if_pos h)

theorem linkFor_decisionUrl (haction : action ∈ ["approve", "reject"])
    (hbase : ∀ c ∈ env.apiBaseUrl.toList, c ≠ '?' ∧ c ≠ '#')
    (h : decisionUrl env action (.str requestId) (.str token) = .ok url) :
    LinkFor py env requestId token action url := by
  obtain ⟨hpath, hquery⟩ := split_decisionUrl haction hbase h
  refine ⟨⟨String.ofList (linkTail action requestId token), ?_, ?_⟩, ?_, ?_⟩
  · rw [← String.toList_inj, toList_decisionUrl h, String.toList_append, String.toList_ofList]
  · intro c hc
    rw [String.toList_ofList] at hc
    exact plain_linkTail haction hc
  · intro plusIsSpace
    rw [hquery, parseQuery_pair]
  · intro path params hsuffix hstart
    rw [hpath] at hsuffix
    exact action_of_endsWith haction (endsWith_action haction hsuffix hstart)

/-! ## The bodies -/

/-- The email has the two URLs at the end of its text and as the links of its page. -/
def Links (approveUrl rejectUrl : String) (email : Email) : Prop :=
  (∃ details, email.textBody =
    details ++ s!"Approve: {approveUrl}\n" ++ s!"Reject:  {rejectUrl}\n") ∧
  (hrefs email.htmlBody.toList).map unescape = [approveUrl, rejectUrl]

theorem hrefs_amount {amount : Json} {rest : List Char} :
    hrefs ((if amount = .null then "" else
      "<p>Amount: <strong>" ++ htmlEscape (py.str amount) ++ "</strong></p>").toList ++ rest) =
      hrefs rest := by
  split
  · rfl
  · rw [String.toList_append, String.toList_append, List.append_assoc, List.append_assoc,
      hrefs_append (by decide), hrefs_append withoutLink_htmlEscape,
      hrefs_append (by decide)]

theorem sendEmail_only {request : Json} :
    (sendEmail py env request approveUrl rejectUrl).Only
      fun op => ∀ email, op = .sendEmail email → Links approveUrl rejectUrl email := by
  unfold sendEmail
  simp only
  split
  · exact meets_raise trivial
  refine meets_any.bind fun title _ => meets_any.bind fun requester _ => meets_any.bind
    fun amount _ => meets_call ?_ fun answer _ => meets_any
  intro email heq
  injection heq with heq
  subst heq
  have hstart : "<a href='".toList = linkStart := by decide
  constructor
  · exact ⟨_, rfl⟩
  · simp only [toString, String.toList_append, List.append_assoc, hstart]
    simp (disch := first | exact withoutLink_htmlEscape | decide) only
      [hrefs_append, hrefs_link, hrefs_amount]
    rw [← List.append_nil "</p></body></html>".toList, hrefs_append (by decide)]
    simp [hrefs, unescape_htmlEscape]

/-! ## The email task -/

theorem get_of_field {value found : Json} {key : String} (h : value.field key = some found) :
    Python.get value key = .ok found := by
  cases value with
  | obj fields =>
    rw [Json.field_obj] at h
    rw [Python.get, h, Option.getD_some]
  | _ => cases h

theorem sendApprovalEmail_only {event : Json}
    (hbase : ∀ c ∈ env.apiBaseUrl.toList, c ≠ '?' ∧ c ≠ '#')
    (htoken : event.get ["task_token"] = some (.str token))
    (hrequest : event.get ["request", "request_id"] = some (.str requestId)) :
    (sendApprovalEmail py env event).Only
      fun op => ∀ email, op = .sendEmail email → CarriesLinks py env requestId token email := by
  rw [Json.get_single] at htoken
  rw [Json.get_cons, Option.bind_eq_some_iff] at hrequest
  obtain ⟨request, hfield, hrequest⟩ := hrequest
  rw [Json.get_single] at hrequest
  have hor : request.orElse (.obj []) = request := by
    cases request with
    | obj fields => exact Json.orElse_obj
    | _ => cases hrequest
  unfold sendApprovalEmail
  rw [get_of_field htoken, get_of_field hfield]
  simp only [ofExcept_ok, ret_bind, hor, get_of_field hrequest]
  split
  · exact meets_raise trivial
  refine meets_call nofun fun answer _ => ?_
  refine meets_any.bind fun _ _ => ?_
  refine (meets_ofExcept (fun _ h => h) fun _ _ => trivial).bind fun approveUrl happrove => ?_
  refine (meets_ofExcept (fun _ h => h) fun _ _ => trivial).bind fun rejectUrl hreject => ?_
  refine (sendEmail_only.mono ?_ fun _ _ => trivial).bind fun _ _ => meets_ret trivial
  rintro op hlinks email rfl
  obtain ⟨htext, hpage⟩ := hlinks email rfl
  exact ⟨approveUrl, rejectUrl, htext, hpage, linkFor_decisionUrl (by decide) hbase happrove,
    linkFor_decisionUrl (by decide) hbase hreject⟩

/-- Every email that is sent, whatever the request and the token are made of. -/
theorem emailedLinks {event : Json} {calls : List (Event Op Ans)} {outcome : Outcome Exc Json}
    {email : Email} {answer : Ans (.sendEmail email)}
    (hbase : ∀ c ∈ env.apiBaseUrl.toList, c ≠ '?' ∧ c ≠ '#')
    (htoken : event.get ["task_token"] = some (.str token))
    (hrequest : event.get ["request", "request_id"] = some (.str requestId))
    (hcalls : Calls (sendApprovalEmail py env event) calls outcome)
    (hsent : ⟨.sendEmail email, answer⟩ ∈ calls) : CarriesLinks py env requestId token email :=
  (sendApprovalEmail_only hbase htoken hrequest).asks hcalls _ hsent email rfl

/-- A request id and a token with separators, quotes and letters of other scripts. -/
theorem emailedLinks_separators : ∃ calls outcome email answer,
    Calls (sendApprovalEmail .sample sampleEnv
      (gateEvent "a+b/c&d=" (.obj [("request_id", .str "it's <\"ü ?")]) .null)) calls outcome ∧
    ⟨.sendEmail email, answer⟩ ∈ calls ∧
    CarriesLinks .sample sampleEnv "it's <\"ü ?" "a+b/c&d=" email := by
  have hcalls : ∃ email, Calls (sendApprovalEmail .sample sampleEnv
      (gateEvent "a+b/c&d=" (.obj [("request_id", .str "it's <\"ü ?")]) .null))
      [⟨.attachToken (.str "it's <\"ü ?") (.str "a+b/c&d="), .ok ()⟩, ⟨.sendEmail email, .ok ()⟩]
      (.returned (.obj [("request_id", .str "it's <\"ü ?"), ("status", statusNotified)])) :=
    ⟨_, calls_call_cons.mpr (calls_call_cons.mpr (calls_ret.mpr ⟨rfl, .inl rfl⟩))⟩
  obtain ⟨email, hcalls⟩ := hcalls
  have hsent : (⟨.sendEmail email, .ok ()⟩ : Event Op Ans) ∈
      [⟨.attachToken (.str "it's <\"ü ?") (.str "a+b/c&d="), .ok ()⟩, ⟨.sendEmail email, .ok ()⟩] := by
    simp
  exact ⟨_, _, email, .ok (), hcalls, hsent,
    emailedLinks (List.all_iff_forall_prop.mp (by decide)) rfl rfl hcalls hsent⟩

end ApprovalWorkflow
