import KitTemplate.Kind.Operations

/-! Members that all values have, those of kinds, and those of members themselves. They are listed
in the order in which they are shown. -/

namespace KitTemplate.Kind.Member

/-- The members of all values. -/
def ofAll : List Member :=
  [maker] ++
    ["__repr__", "__hash__", "__str__", "__getattribute__", "__setattr__",
     "__delattr__"].map operation ++
    comparisons ++
    ["__init__"].map operation ++
    [method "__reduce_ex__" "($self, protocol, /)" ["Helper for pickle."],
     method "__reduce__" "($self, /)" ["Helper for pickle."],
     method "__getstate__" "($self, /)" ["Helper for pickle."],
     sharedMethod "__subclasshook__" ""
       ["Abstract classes can override this to customize issubclass().", "",
        "This is invoked early on by abc.ABCMeta.__subclasscheck__().",
        "It should return True, False or NotImplemented.  If it returns",
        "NotImplemented, the normal algorithm is used.  Otherwise, it",
        "overrides the normal algorithm (and the outcome is cached).", ""],
     sharedMethod "__init_subclass__" ""
       ["This method is called when a class is subclassed.", "",
        "The default implementation does nothing. It may be", "overridden to extend subclasses.",
        ""],
     method "__format__" "($self, format_spec, /)" ["Default object formatter."],
     method "__sizeof__" "($self, /)" ["Size of object in memory, in bytes."],
     method "__dir__" "($self, /)" ["Default dir() implementation."],
     trait "__class__" ["the object's class"],
     constant "__doc__"
       ["The base class of the class hierarchy.", "",
        "When called, it accepts no arguments and returns a new featureless",
        "instance that has no instance attributes and cannot be given any.", ""]]

/-- The members of kinds. -/
def ofKinds : List Member :=
  [maker] ++
    ["__repr__", "__call__", "__getattribute__", "__setattr__", "__delattr__", "__init__",
     "__or__", "__ror__"].map operation ++
    [method "mro" "($self, /)" ["Return a type's method resolution order."],
     method "__subclasses__" "($self, /)" ["Return a list of immediate subclasses."],
     sharedMethod "__prepare__" ""
       ["__prepare__() -> dict", "used to create the namespace for the class statement"],
     method "__instancecheck__" "($self, instance, /)" ["Check if an object is an instance."],
     method "__subclasscheck__" "($self, subclass, /)" ["Check if a class is a subclass."],
     method "__dir__" "($self, /)" ["Specialized __dir__ implementation for types."],
     method "__sizeof__" "($self, /)" ["Return memory consumption of the type object."],
     field "__basicsize__" [],
     field "__itemsize__" [],
     field "__flags__" [],
     field "__weakrefoffset__" [],
     field "__base__" [],
     field "__dictoffset__" [],
     field "__mro__" [],
     trait "__name__" [],
     trait "__qualname__" [],
     trait "__bases__" [],
     trait "__module__" [],
     trait "__abstractmethods__" [],
     trait "__dict__" [],
     trait "__doc__" [],
     trait "__text_signature__" [],
     trait "__annotations__" []]

/-- The members of special kinds. -/
def ofSpecialKinds : List Member :=
  [maker] ++
    ["__repr__", "__hash__", "__call__", "__getattribute__"].map operation ++
    comparisons ++
    ["__iter__", "__or__", "__ror__", "__getitem__"].map operation ++
    [method "__mro_entries__" "" [],
     method "__instancecheck__" "" [],
     method "__subclasscheck__" "" [],
     method "__reduce__" "" [],
     method "__dir__" "" [],
     field "__origin__" [],
     field "__args__" [],
     field "__unpacked__" [],
     trait "__parameters__" ["Type variables in the GenericAlias."],
     trait "__typing_unpacked_tuple_args__" [],
     constant "__doc__"
       ["Represent a PEP 585 generic type", "",
        "E.g. for t = list[int], t.__origin__ is list and t.__args__ is (int,)."]]

/-- The members of operations. -/
def ofOperations : List Member :=
  ["__repr__", "__call__", "__getattribute__", "__get__"].map operation ++
    [method "__reduce__" "" [],
     field "__objclass__" [],
     field "__name__" [],
     trait "__doc__" [],
     trait "__qualname__" [],
     trait "__text_signature__" []]

/-- The members of methods. -/
def ofMethods : List Member :=
  ["__repr__", "__call__", "__getattribute__", "__get__"].map operation ++
    [method "__reduce__" "" [],
     field "__objclass__" [],
     field "__name__" [],
     trait "__doc__" [],
     trait "__qualname__" [],
     trait "__text_signature__" []]

/-- The members of traits. -/
def ofTraits : List Member :=
  ["__repr__", "__getattribute__", "__get__", "__set__", "__delete__"].map operation ++
    [field "__objclass__" [],
     field "__name__" [],
     trait "__doc__" [],
     trait "__qualname__" []]

/-- The members of fields. -/
def ofFields : List Member :=
  ["__repr__", "__getattribute__", "__get__", "__set__", "__delete__"].map operation ++
    [method "__reduce__" "" [],
     field "__objclass__" [],
     field "__name__" [],
     trait "__doc__" [],
     trait "__qualname__" []]

/-- The members of methods of a kind. -/
def ofSharedMethods : List Member :=
  ["__repr__", "__call__", "__getattribute__", "__get__"].map operation ++
    [field "__objclass__" [],
     field "__name__" [],
     trait "__doc__" [],
     trait "__qualname__" [],
     trait "__text_signature__" []]

/-- The members of functions. -/
def ofFunctions : List Member :=
  ["__repr__", "__hash__", "__call__", "__getattribute__"].map operation ++
    comparisons ++
    [method "__reduce__" "" [],
     field "__module__" [],
     trait "__doc__" [],
     trait "__name__" [],
     trait "__qualname__" [],
     trait "__self__" [],
     trait "__text_signature__" []]

/-- The members of operations of one value. -/
def ofBoundOperations : List Member :=
  ["__repr__", "__hash__", "__call__", "__getattribute__"].map operation ++
    comparisons ++
    [method "__reduce__" "" [],
     field "__self__" [],
     trait "__objclass__" [],
     trait "__name__" [],
     trait "__qualname__" [],
     trait "__doc__" [],
     trait "__text_signature__" []]

/-- The members of functions that stand in a kind. -/
def ofWrapped : List Member :=
  [maker] ++
    ["__repr__", "__call__", "__get__", "__init__"].map operation ++
    [field "__func__" [],
     field "__wrapped__" [],
     trait "__isabstractmethod__" [],
     trait "__dict__" [],
     constant "__doc__"
       ["staticmethod(function) -> method", "", "Convert a function to be a static method.", "",
        "A static method does not receive an implicit first argument.",
        "To declare a static method, use this idiom:", "", "     class C:",
        "         @staticmethod", "         def f(arg1, arg2, argN):", "             ...", "",
        "It can be called either on the class (e.g. C.f()) or on an instance",
        "(e.g. C().f()). Both the class and the instance are ignored, and",
        "neither is passed implicitly as the first argument to the method.", "",
        "Static methods in Python are similar to those found in Java or C++.",
        "For a more advanced concept, see the classmethod builtin."]]

end KitTemplate.Kind.Member
