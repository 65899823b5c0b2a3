import Metamodel.Source.Settings.File

/-!
# Names of the library

The names that every text knows without declaring them, with the edition that brings them, the
number of their type arguments, and whether they are types, values, or classes whose values can be
created.
-/

namespace Metamodel.Source

/-- How a library name is declared. -/
inductive LibraryForm where
  | interface
  /-- a type and a value of its name that creates values of the type -/
  | «class»
  /-- a type and a value of its name -/
  | companion
  | value
  /-- a type made of the members of others under given keys -/
  | record
  /-- a type made of the members of another type one by one -/
  | memberwise
  /-- a type without its absent values -/
  | present
  /-- a text type made of another one -/
  | textual
  /-- a type that is computed from others -/
  | computed
  deriving DecidableEq, Inhabited

/-- A name of the library. -/
structure LibraryName where
  name : String
  edition : Nat
  form : LibraryForm
  /-- the least and the greatest number of type arguments -/
  arity : Nat × Nat
  deriving DecidableEq, Inhabited

namespace LibraryName

def isType (n : LibraryName) : Bool := n.form != .value

def isValue (n : LibraryName) : Bool :=
  n.form == .value || n.form == .class || n.form == .companion

/-- Names of one form and arity that an edition brings. -/
def group (edition : Nat) (form : LibraryForm) (least greatest : Nat) (names : List String) :
    List LibraryName :=
  names.map fun name => ⟨name, edition, form, (least, greatest)⟩

/-- The names of the language's own library. -/
def language : List LibraryName :=
  group 5 .class 0 0
    ["Object", "Function", "String", "Number", "Boolean", "Date", "RegExp", "Error", "EvalError",
      "RangeError", "ReferenceError", "SyntaxError", "TypeError", "URIError", "ArrayBuffer"] ++
  group 5 .class 0 1
    ["DataView", "Int8Array", "Uint8Array", "Uint8ClampedArray", "Int16Array", "Uint16Array",
      "Int32Array", "Uint32Array", "Float32Array", "Float64Array"] ++
  group 5 .class 1 1 ["Array"] ++
  group 5 .companion 0 0 ["JSON", "Math"] ++
  group 5 .interface 0 0
    ["Symbol", "PropertyDescriptor", "PropertyDescriptorMap", "CallableFunction",
      "NewableFunction", "IArguments", "TemplateStringsArray", "ImportMeta", "ImportCallOptions",
      "ImportAttributes", "RegExpMatchArray", "RegExpExecArray", "ArrayBufferTypes",
      "ObjectConstructor", "FunctionConstructor", "StringConstructor", "NumberConstructor",
      "BooleanConstructor", "DateConstructor", "RegExpConstructor", "ErrorConstructor",
      "ArrayConstructor", "ArrayBufferConstructor"] ++
  group 5 .interface 0 1 ["ArrayBufferView"] ++
  group 5 .interface 1 1
    ["ReadonlyArray", "ArrayLike", "ConcatArray", "Promise", "PromiseLike", "ThisType",
      "TypedPropertyDescriptor"] ++
  group 5 .memberwise 1 1 ["Partial", "Required", "Readonly"] ++
  group 5 .record 2 2 ["Record", "Pick", "Omit"] ++
  group 5 .present 1 1 ["NonNullable"] ++
  group 5 .textual 1 1 ["Uppercase", "Lowercase", "Capitalize", "Uncapitalize"] ++
  group 5 .computed 2 2 ["Exclude", "Extract"] ++
  group 5 .computed 1 1
    ["Parameters", "ConstructorParameters", "ReturnType", "InstanceType", "Awaited", "NoInfer",
      "ThisParameterType", "OmitThisParameter", "MethodDecorator"] ++
  group 5 .computed 0 0
    ["PropertyKey", "ClassDecorator", "PropertyDecorator", "ParameterDecorator",
      "ArrayBufferLike", "WeakKey", "PromiseConstructorLike"] ++
  group 5 .value 0 0
    ["NaN", "Infinity", "parseInt", "parseFloat", "isNaN", "isFinite", "decodeURI",
      "decodeURIComponent", "encodeURI", "encodeURIComponent", "escape", "unescape", "eval",
      "Intl"] ++
  group 2015 .class 2 2 ["Map", "WeakMap"] ++
  group 2015 .class 1 1 ["Set", "WeakSet", "Promise"] ++
  group 2015 .companion 0 0 ["Symbol"] ++
  group 2015 .interface 2 2 ["ReadonlyMap"] ++
  group 2015 .interface 1 1 ["ReadonlySet", "ArrayIterator", "SetIterator", "ProxyHandler"] ++
  group 2015 .interface 2 2 ["MapIterator"] ++
  group 2015 .interface 1 3 ["Iterable", "Iterator", "IterableIterator", "IteratorObject"] ++
  group 2015 .interface 0 3 ["Generator"] ++
  group 2015 .interface 1 1 ["IteratorYieldResult", "IteratorReturnResult"] ++
  group 2015 .computed 1 2 ["IteratorResult"] ++
  group 2015 .interface 0 0
    ["GeneratorFunction", "MapConstructor", "SetConstructor", "PromiseConstructor",
      "SymbolConstructor", "WeakMapConstructor", "WeakSetConstructor", "ProxyConstructor"] ++
  group 2015 .value 0 0 ["Reflect", "Proxy"] ++
  group 2017 .class 0 0 ["SharedArrayBuffer"] ++
  group 2017 .companion 0 0 ["Atomics"] ++
  group 2018 .interface 1 3 ["AsyncIterable", "AsyncIterator", "AsyncIterableIterator"] ++
  group 2018 .interface 0 3 ["AsyncGenerator"] ++
  group 2020 .companion 0 0 ["BigInt"] ++
  group 2020 .class 0 1 ["BigInt64Array", "BigUint64Array"] ++
  group 2020 .interface 1 1 ["PromiseFulfilledResult"] ++
  group 2020 .interface 0 0 ["PromiseRejectedResult"] ++
  group 2020 .computed 1 1 ["PromiseSettledResult"] ++
  group 2021 .class 1 1 ["WeakRef", "FinalizationRegistry"] ++
  group 2021 .class 0 0 ["AggregateError"] ++
  group 2022 .interface 0 0 ["ErrorOptions"] ++
  group 9999 .class 0 0 ["DisposableStack", "AsyncDisposableStack", "SuppressedError"] ++
  group 9999 .interface 0 0 ["Disposable", "AsyncDisposable"]

/-- The names that a browser adds. -/
def browser : List LibraryName :=
  group 5 .class 0 0
    ["AbortController", "AbortSignal", "Attr", "Audio", "Blob", "BroadcastChannel", "CDATASection",
      "CSSRule", "CSSStyleDeclaration", "CSSStyleSheet", "CloseEvent", "Comment",
      "CompressionStream", "Crypto", "CryptoKey", "CustomElementRegistry", "DOMException", "DOMParser", "DOMRect",
      "DataTransfer", "Document", "DocumentFragment", "DragEvent", "Element", "ErrorEvent", "Event",
      "EventSource", "EventTarget", "File", "FileList", "FileReader", "FocusEvent", "FormData",
      "HTMLAnchorElement", "HTMLButtonElement", "HTMLCanvasElement", "HTMLCollection",
      "HTMLDivElement", "HTMLElement", "HTMLFormElement", "HTMLImageElement", "HTMLInputElement",
      "HTMLLinkElement", "HTMLOptionElement", "HTMLScriptElement", "HTMLSelectElement",
      "HTMLSpanElement", "HTMLTableElement", "HTMLTextAreaElement", "HTMLVideoElement", "Headers",
      "History", "IDBDatabase", "IDBKeyRange", "Image", "ImageData", "InputEvent",
      "IntersectionObserver", "KeyboardEvent", "Location", "Lock", "MediaStream", "MessageChannel",
      "MessageEvent", "MessagePort", "MouseEvent", "MutationObserver", "Navigator", "Node",
      "NodeList", "Notification", "Option", "Path2D", "Performance", "PerformanceEntry",
      "Permissions", "Plugin", "PointerEvent", "ProgressEvent", "Range", "Request",
      "ResizeObserver", "Response", "Screen", "Selection", "ServiceWorker", "ShadowRoot",
      "SharedWorker", "Storage", "StorageEvent", "StyleSheet", "SubmitEvent", "SubtleCrypto",
      "SVGElement", "Text", "TextDecoder", "TextEncoder", "TouchEvent", "TransformStream",
      "UIEvent", "URL", "URLSearchParams", "ValidityState", "WebSocket", "WheelEvent", "Window",
      "Worker", "XMLHttpRequest", "XMLSerializer"] ++
  group 5 .class 0 1 ["CustomEvent", "ReadableStream", "WritableStream", "PromiseRejectionEvent"] ++
  group 5 .interface 0 0
    ["AddEventListenerOptions", "BlobPropertyBag", "Body", "CustomElementConstructor",
      "EventInit", "EventListenerObject", "EventListenerOptions", "FilePropertyBag",
      "MessageEventSource", "RequestInit", "ResponseInit"] ++
  group 5 .value 0 0
    ["window", "document", "console", "self", "navigator", "location", "history", "screen",
      "localStorage", "sessionStorage", "fetch", "alert", "confirm", "prompt", "setTimeout",
      "clearTimeout", "setInterval", "clearInterval", "queueMicrotask", "structuredClone",
      "requestAnimationFrame", "cancelAnimationFrame", "crypto", "performance", "indexedDB",
      "name", "length", "event", "origin", "parent", "top", "status", "closed", "frames", "opener",
      "print", "stop", "focus", "blur", "open", "close", "find", "atob", "btoa"]

/-- The names that a program of some settings knows. -/
def known (s : Settings) : List LibraryName :=
  (language ++ if s.browser then browser else []).filter fun n =>
    n.edition ≤ s.edition && s.edition != 0

end LibraryName

end Metamodel.Source
