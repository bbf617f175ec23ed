import KitTemplate.Kind.Operations

/-! Members of lists, tables and rows, and of the table in which the members of a kind are found.
They are listed in the order in which they are shown. -/

namespace KitTemplate.Kind.Member

/-- The members of lists. -/
def ofLists : List Member :=
  [maker] ++
    ["__repr__"].map operation ++
    [constant "__hash__" []] ++
    ["__getattribute__"].map operation ++
    comparisons ++
    ["__iter__", "__init__", "__len__"].map operation ++
    [method "__getitem__" "" ["x.__getitem__(y) <==> x[y]"]] ++
    ["__setitem__", "__delitem__", "__add__", "__mul__", "__rmul__", "__contains__", "__iadd__",
     "__imul__"].map operation ++
    [method "__reversed__" "($self, /)" ["Return a reverse iterator over the list."],
     method "__sizeof__" "($self, /)" ["Return the size of the list in memory, in bytes."],
     method "clear" "($self, /)" ["Remove all items from list."],
     method "copy" "($self, /)" ["Return a shallow copy of the list."],
     method "append" "($self, object, /)" ["Append object to the end of the list."],
     method "insert" "($self, index, object, /)" ["Insert object before index."],
     method "extend" "($self, iterable, /)"
       ["Extend list by appending elements from the iterable."],
     method "pop" "($self, index=-1, /)"
       ["Remove and return item at index (default last).", "",
        "Raises IndexError if list is empty or index is out of range."],
     method "remove" "($self, value, /)"
       ["Remove first occurrence of value.", "", "Raises ValueError if the value is not present."],
     method "index" "($self, value, start=0, stop=sys.maxsize, /)"
       ["Return first index of value.", "", "Raises ValueError if the value is not present."],
     method "count" "($self, value, /)" ["Return number of occurrences of value."],
     method "reverse" "($self, /)" ["Reverse *IN PLACE*."],
     method "sort" "($self, /, *, key=None, reverse=False)"
       ["Sort the list in ascending order and return None.", "",
        "The sort is in-place (i.e. the list itself is modified) and stable (i.e. the",
        "order of two equal elements is maintained).", "",
        "If a key function is given, apply it once to each list item and sort them,",
        "ascending or descending, according to their function values.", "",
        "The reverse flag can be set to sort in descending order."],
     sharedMethod "__class_getitem__" "" ["See PEP 585"],
     constant "__doc__"
       ["Built-in mutable sequence.", "",
        "If no argument is given, the constructor creates a new empty list.",
        "The argument must be an iterable if specified."]]

/-- The members of tables. -/
def ofTables : List Member :=
  [maker] ++
    ["__repr__"].map operation ++
    [constant "__hash__" []] ++
    ["__getattribute__"].map operation ++
    comparisons ++
    ["__iter__", "__init__", "__or__", "__ror__", "__ior__", "__len__"].map operation ++
    [method "__getitem__" "" ["x.__getitem__(y) <==> x[y]"]] ++
    ["__setitem__", "__delitem__"].map operation ++
    [method "__contains__" "($self, key, /)"
       ["True if the dictionary has the specified key, else False."],
     method "__sizeof__" "" ["D.__sizeof__() -> size of D in memory, in bytes"],
     method "get" "($self, key, default=None, /)"
       ["Return the value for key if key is in the dictionary, else default."],
     method "setdefault" "($self, key, default=None, /)"
       ["Insert key with a value of default if key is not in the dictionary.", "",
        "Return the value for key if key is in the dictionary, else default."],
     method "pop" "($self, key, default=<unrepresentable>, /)"
       ["D.pop(k[,d]) -> v, remove specified key and return the corresponding value.", "",
        "If the key is not found, return the default if given; otherwise,", "raise a KeyError."],
     method "popitem" "($self, /)"
       ["Remove and return a (key, value) pair as a 2-tuple.", "",
        "Pairs are returned in LIFO (last-in, first-out) order.",
        "Raises KeyError if the dict is empty."],
     method "keys" "" ["D.keys() -> a set-like object providing a view on D's keys"],
     method "items" "" ["D.items() -> a set-like object providing a view on D's items"],
     method "values" "" ["D.values() -> an object providing a view on D's values"],
     method "update" ""
       ["D.update([E, ]**F) -> None.  Update D from dict/iterable E and F.",
        "If E is present and has a .keys() method, then does:  for k in E: D[k] = E[k]",
        "If E is present and lacks a .keys() method, then does:  for k, v in E: D[k] = v",
        "In either case, this is followed by: for k in F:  D[k] = F[k]"],
     sharedMethod "fromkeys" "($type, iterable, value=None, /)"
       ["Create a new dictionary with keys from iterable and values set to value."],
     method "clear" "" ["D.clear() -> None.  Remove all items from D."],
     method "copy" "" ["D.copy() -> a shallow copy of D"],
     method "__reversed__" "($self, /)" ["Return a reverse iterator over the dict keys."],
     sharedMethod "__class_getitem__" "" ["See PEP 585"],
     constant "__doc__"
       ["dict() -> new empty dictionary",
        "dict(mapping) -> new dictionary initialized from a mapping object's",
        "    (key, value) pairs", "dict(iterable) -> new dictionary initialized as if via:",
        "    d = \x7b\x7d", "    for k, v in iterable:", "        d[k] = v",
        "dict(**kwargs) -> new dictionary initialized with the name=value pairs",
        "    in the keyword argument list.  For example:  dict(one=1, two=2)"]]

/-- The members of rows. -/
def ofRows : List Member :=
  [maker] ++
    ["__repr__", "__hash__", "__getattribute__"].map operation ++
    comparisons ++
    ["__iter__", "__len__", "__getitem__", "__add__", "__mul__", "__rmul__",
     "__contains__"].map operation ++
    [method "__getnewargs__" "($self, /)" [],
     method "index" "($self, value, start=0, stop=sys.maxsize, /)"
       ["Return first index of value.", "", "Raises ValueError if the value is not present."],
     method "count" "($self, value, /)" ["Return number of occurrences of value."],
     sharedMethod "__class_getitem__" "" ["See PEP 585"],
     constant "__doc__"
       ["Built-in immutable sequence.", "",
        "If no argument is given, the constructor returns an empty tuple.",
        "If iterable is specified the tuple is initialized from iterable's items.", "",
        "If the argument is a tuple, the return value is the same object."]]

/-- The members of tables of members. -/
def ofMembers : List Member :=
  [maker] ++
    ["__repr__", "__str__", "__getattribute__"].map operation ++
    comparisons ++
    ["__iter__", "__or__", "__ror__", "__ior__", "__len__", "__getitem__",
     "__contains__"].map operation ++
    [method "get" "" ["D.get(k[,d]) -> D[k] if k in D, else d.  d defaults to None."],
     method "keys" "" ["D.keys() -> a set-like object providing a view on D's keys"],
     method "values" "" ["D.values() -> an object providing a view on D's values"],
     method "items" "" ["D.items() -> a set-like object providing a view on D's items"],
     method "copy" "" ["D.copy() -> a shallow copy of D"],
     sharedMethod "__class_getitem__" "" ["See PEP 585"],
     method "__reversed__" "" ["D.__reversed__() -> reverse iterator"],
     constant "__doc__" [],
     constant "__hash__" []]

end KitTemplate.Kind.Member
