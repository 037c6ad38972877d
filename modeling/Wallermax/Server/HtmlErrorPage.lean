import Wallermax.Base.Uri

/-!
# The HTML error page

`HtmlErrorPage` of `error.rs`: one page for every error a browser is shown, without scripts.
What comes from a request or an answer is escaped, and a limited request reloads itself.
-/

namespace Wallermax.Server

open Wallermax.Base

/-- `str::replace` of one character. -/
def replaceChar (c : Char) (replacement text : Text) : Text :=
  text.flatMap fun d => if d = c then replacement else [d]

def escapeHtmlText (text : Text) : Text :=
  let text := replaceChar '&' "&amp;".toList text
  let text := replaceChar '<' "&lt;".toList text
  let text := replaceChar '>' "&gt;".toList text
  let text := replaceChar '"' "&quot;".toList text
  let text := replaceChar '\'' "&#039;".toList text
  let text := replaceChar '/' "&#x2F;".toList text
  replaceChar '`' "&#96;".toList text

abbrev StatusCode : Type := ℕ

def statusTitle : StatusCode → Text
  | 400 => "Bad request".toList
  | 401 => "Sign-in required".toList
  | 403 => "Access denied".toList
  | 404 => "Page not found".toList
  | 405 => "Method not allowed".toList
  | 409 => "Conflict".toList
  | 408 => "Request timeout".toList
  | 413 => "Upload too large".toList
  | 415 => "Unsupported media type".toList
  | 429 => "Slow down for a moment".toList
  | 500 => "Something went wrong".toList
  | 502 => "Bad gateway".toList
  | 503 => "Service unavailable".toList
  | 504 => "Gateway timeout".toList
  | _ => "Request failed".toList

structure HtmlErrorPage : Type where
  status : StatusCode
  code : Text
  message : Text
  request_id : Option Text
  method : Option Text
  target : Option Text
  retry_after_secs : Option ℕ
  theme : Option Text

namespace HtmlErrorPage

def themeAttr (page : HtmlErrorPage) : Text :=
  if page.theme = some "dark".toList then " data-theme=\"dark\"".toList
  else if page.theme = some "light".toList then " data-theme=\"light\"".toList
  else []

/-- The delay of the reload, from one second to five. -/
def delay (secs : ℕ) : ℕ := min 5 (max 1 secs)

def metaRefresh (page : HtmlErrorPage) : Text :=
  match page.status, page.retry_after_secs with
  | 429, some secs =>
      "\n  <meta http-equiv=\"refresh\" content=\"".toList ++ Nat.toDigits 10 (delay secs) ++
        "\">".toList
  | _, _ => []

def retryNote (page : HtmlErrorPage) : Text :=
  match page.status, page.retry_after_secs with
  | 429, some secs =>
      "\n    <p class=\"error-retry\">This page reloads itself in ".toList ++
        Nat.toDigits 10 (delay secs) ++ " second".toList ++
        (if delay secs = 1 then [] else ['s']) ++
        " — the request budget refills continuously.</p>".toList
  | _, _ => []

def actions (page : HtmlErrorPage) : Text :=
  if page.status = 401 then
    "<a class=\"primary\" href=\"/login\">Sign in</a>\n      ".toList ++
      "<a href=\"/\">Go to the homepage</a>\n      ".toList ++
      "<a href=\"/p\">Published pages</a>".toList
  else
    "<a class=\"primary\" href=\"/\">Go to the homepage</a>\n      ".toList ++
      "<a href=\"/p\">Published pages</a>\n      ".toList ++
      "<a href=\"/admin\">CMS panel</a>".toList

def requestLine (page : HtmlErrorPage) : Text :=
  match page.method.map escapeHtmlText, page.target.map escapeHtmlText with
  | some method, some target =>
      "\n    <dt>Request</dt><dd>".toList ++ method ++ ' ' :: target ++ "</dd>".toList
  | some method, none => "\n    <dt>Request</dt><dd>".toList ++ method ++ "</dd>".toList
  | none, some target => "\n    <dt>Request</dt><dd>".toList ++ target ++ "</dd>".toList
  | none, none => []

def requestIdLine (page : HtmlErrorPage) : Text :=
  (page.request_id.map escapeHtmlText).elim [] fun id =>
    "\n    <dt>Request id</dt><dd>".toList ++ id ++ "</dd>".toList

def render (page : HtmlErrorPage) : Text :=
  let status := Nat.toDigits 10 page.status
  let title := statusTitle page.status
  "<!DOCTYPE html>\n<html lang=\"en\"".toList ++ page.themeAttr ++ ">\n<head>\n  ".toList ++
    "<meta charset=\"utf-8\">\n  ".toList ++
    "<meta name=\"viewport\" content=\"width=device-width, initial-scale=1\">\n  ".toList ++
    "<meta name=\"robots\" content=\"noindex\">\n  ".toList ++
    "<title>".toList ++ status ++ ' ' :: title ++ " — wallermax</title>\n  ".toList ++
    "<link rel=\"stylesheet\" href=\"/assets/error.css\">".toList ++ page.metaRefresh ++
    "\n</head>\n<body>\n  ".toList ++
    "<main class=\"error-card\" role=\"main\">\n    ".toList ++
    "<div class=\"error-status\">\n      ".toList ++
    "<span class=\"error-code\">".toList ++ status ++ "</span>\n      ".toList ++
    "<span class=\"error-code-name\">".toList ++ escapeHtmlText page.code ++
    "</span>\n    ".toList ++
    "</div>\n    ".toList ++
    "<h1>".toList ++ title ++ "</h1>\n    ".toList ++
    "<p class=\"error-message\">".toList ++ escapeHtmlText page.message ++ "</p>\n    ".toList ++
    "<dl class=\"error-detail\">".toList ++ page.requestLine ++ page.requestIdLine ++
    "</dl>\n    ".toList ++
    "<div class=\"error-actions\">\n      ".toList ++ page.actions ++ "\n    </div>".toList ++
    page.retryNote ++ "\n    ".toList ++
    "<p class=\"error-brand\">wallermax-server — served without a line of ".toList ++
    "JavaScript.</p>\n  ".toList ++
    "</main>\n</body>\n</html>\n".toList

end HtmlErrorPage

end Wallermax.Server
