import SqlWeave.Mapping.Reading

/-!
# A shop

Sample record types: customers with an address and their orders, and categories that form a tree. A
customer's address is flattened into the customer's table, the orders and their customers refer to
each other, and so do categories.
-/

namespace SqlWeave.Sample

/-- Where somebody lives. -/
structure Address where
  city : String := ""
  zip : String := ""
  deriving DecidableEq, Repr, Inhabited

/-- Addresses have no key. -/
def Address.mapping : Mapping Address where
  typeName := "Address"
  table := "Addresses"
  columns := [.typed "City" "City" (·.city) (fun v a => { a with city := v }),
    .typed "Zip" "Zip" (·.zip) (fun v a => { a with zip := v })]
  default := some {}

mutual

/-- Somebody who orders. -/
structure Customer where
  id : Int
  name : String
  address : Address
  orders : List Order

/-- What somebody ordered. -/
structure Order where
  id : Int
  total : Float
  customer : Option Customer

end

/-- A customer without orders. -/
def Customer.blank : Customer := ⟨0, "", {}, []⟩

/-- An order of nobody. -/
def Order.blank : Order := ⟨0, 0, none⟩

/-- Customers with the columns of their addresses. -/
def Customer.mapping : Mapping Customer where
  typeName := "Customer"
  table := "Customers"
  columns :=
    [.asIdentity (.typed "Id" "Id" (·.id) fun v a => { a with id := v }),
      .typed "Name" "Name" (·.name) (fun v a => { a with name := v })] ++
    Address.mapping.columnsWithin "Address" "Address" (·.address)
      (fun v a => { a with address := v })
  default := some .blank

/-- Orders by a number. -/
def Order.mapping : Mapping Order where
  typeName := "Order"
  table := "Orders"
  columns := [.asIdentity (.typed "Id" "Id" (·.id) fun v a => { a with id := v }),
    .typed "Total" "Total" (·.total) (fun v a => { a with total := v })]
  default := some .blank

/-- Customers with their orders. -/
def Customer.entity : Entity Customer :=
  { Customer.mapping with
    foreign := [.hasMany "Orders" "Id" "CustomerId" Order.mapping
      fun v a => { a with orders := v }] }

/-- Orders with their customer. -/
def Order.entity : Entity Order :=
  { Order.mapping with
    foreign := [.belongsTo "Customer" "CustomerId" Customer.mapping (·.customer)
      fun v a => { a with customer := v }] }

/-- A node of a tree of goods. -/
structure Category where
  id : Int
  parentId : Option Int
  parent : Option Category
  children : List Category

/-- A category that stands alone. -/
def Category.blank : Category := ⟨0, none, none, []⟩

/-- Categories by a number. -/
def Category.mapping : Mapping Category where
  typeName := "Category"
  table := "Categories"
  columns := [.asKey (.typed "Id" "Id" (·.id) fun v a => { a with id := v }),
    .typed "ParentId" "ParentId" (·.parentId) (fun v a => { a with parentId := v })]
  default := some .blank

/-- Categories with the nodes above and below them. -/
def Category.entity : Entity Category :=
  { Category.mapping with
    foreign := [.belongsTo "Parent" "ParentId" Category.mapping (·.parent)
        fun v a => { a with parent := v },
      .hasMany "Children" "Id" "ParentId" Category.mapping
        fun v a => { a with children := v }] }

end SqlWeave.Sample
